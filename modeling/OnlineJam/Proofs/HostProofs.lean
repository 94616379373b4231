import OnlineJam.Core.Host
import OnlineJam.Proofs.ControlProofs
import OnlineJam.Proofs.HandshakeProofs

/-!
# Host process: what its steps can do

The invariant of the control loop: every task that waits to be executed is vouched for by the slot
table as it is then. From it follows what the host can put on the network.
-/

namespace OnlineJam

open OnlineJam.Lib
open HostHandshake

/-! ## Address tables -/

/-- What an update does to an address table. -/
def AddrUpdate.apply (table : Fin maxClients → Option SocketAddr) :
    AddrUpdate → Fin maxClients → Option SocketAddr
  | .client slot addr =>
    if h : slot.toNat < maxClients then Function.update table ⟨slot.toNat, h⟩ addr else table
  | .peer _ => table

theorem RxState.update_clientAddrs (rx : RxState) (u : AddrUpdate) :
    (rx.update u).clientAddrs = u.apply rx.clientAddrs := by
  cases u with
  | client slot addr =>
    unfold RxState.update AddrUpdate.apply
    dsimp only
    split <;> rfl
  | peer addr => rfl

theorem TxState.update_clients (tx : TxState) (u : AddrUpdate) :
    (tx.update u).clients = u.apply tx.clients := by
  cases u with
  | client slot addr =>
    unfold TxState.update AddrUpdate.apply
    dsimp only
    split <;> rfl
  | peer addr => rfl

/-- The receive thread's table once it has taken in all updates on their way. -/
def Host.rxTable (h : Host) : Fin maxClients → Option SocketAddr :=
  h.updates.foldl AddrUpdate.apply h.rx.clientAddrs

/-- The transmit thread's table once it has taken in all updates on their way. -/
def Host.txTable (h : Host) : Fin maxClients → Option SocketAddr :=
  h.txUpdates.foldl AddrUpdate.apply h.tx.clients

/-- What a task tells the receive and the transmit thread. -/
def HostTask.update (hs : HostHandshake) : HostTask → Option AddrUpdate
  | .act (.clientJoined sender _) =>
    (slotOfSender sender).map fun slot => .client (UInt8.ofNat slot.val) (hs.clientAddr sender)
  | .act (.clientLeft sender _) =>
    (slotOfSender sender).map fun slot => .client (UInt8.ofNat slot.val) none
  | _ => none

/-! ## Tasks -/

/-- What a task puts on the network, and where it goes. -/
def HostTask.packet (nowUs : Nat) : HostTask → Option (SocketAddr × Control)
  | .act (.send dst control) => some (dst, control)
  | .act _ => none
  | .ping dst => some (dst, .ping (UInt64.ofNat nowUs))
  | .keepalive dst => some (dst, .keepalive)
  | .bye dst => some (dst, .bye)

/-- What is true of a task while it waits to be executed. -/
def HostTask.Vouched (hs : HostHandshake) : HostTask → Prop
  | .act action => hs.Vouches action
  | .ping dst | .keepalive dst | .bye dst => ∃ i, hs.addrAt i = some dst

/-- The handshake machine after a control packet was stamped. -/
def HostHandshake.afterSend (hs : HostHandshake) (dst : SocketAddr) (control : Control)
    (seq : UInt16) : HostHandshake :=
  match control with
  | .welcome .. => hs.welcomeSent dst seq
  | _ => hs

theorem keeps_afterSend (hs : HostHandshake) (dst : SocketAddr) (control : Control) (seq : UInt16) :
    Keeps hs (hs.afterSend dst control seq) := by
  unfold HostHandshake.afterSend
  split
  · exact keeps_welcomeSent _ _ _
  · exact Keeps.refl hs

theorem HostTask.Vouched.afterSend {hs : HostHandshake} {task : HostTask} (h : task.Vouched hs)
    (dst : SocketAddr) (control : Control) (seq : UInt16) :
    task.Vouched (hs.afterSend dst control seq) := by
  have hk := keeps_afterSend hs dst control seq
  cases task with
  | act action =>
    unfold HostHandshake.afterSend
    split
    · exact vouches_welcomeSent h _ _
    · exact h
  | ping d | keepalive d | bye d =>
    obtain ⟨i, hi⟩ := h
    exact ⟨i, (hk.addrAt i).trans hi⟩

/-- A vouched packet fits on the wire, and only a DENY goes to an address without a slot. -/
theorem HostTask.Vouched.packet {hs : HostHandshake} {task : HostTask} {nowUs : Nat}
    {dst : SocketAddr} {control : Control} (h : task.Vouched hs)
    (hp : task.packet nowUs = some (dst, control)) :
    control.RosterFits ∧ ((∃ reason, control = .deny reason) ∨ ∃ i, hs.addrAt i = some dst) := by
  cases task with
  | act action =>
    cases action with
    | send d c =>
      obtain ⟨rfl, rfl⟩ := Prod.mk.inj (Option.some.inj hp)
      cases c with
      | welcome id sessionId sampleRate frameSamples codec roster =>
        obtain ⟨⟨i, hi, _⟩, _, hlen⟩ := h
        exact ⟨hlen, .inr ⟨i, hi⟩⟩
      | roster players => exact ⟨h.2, .inr h.1⟩
      | deny reason => exact ⟨trivial, .inl ⟨reason, rfl⟩⟩
      | _ => exact absurd h id
    | clientJoined sender name => cases hp
    | clientLeft sender reason => cases hp
  | ping d | keepalive d | bye d =>
    obtain ⟨rfl, rfl⟩ := Prod.mk.inj (Option.some.inj hp)
    exact ⟨trivial, .inr h⟩

/-- Only a handshake action denies. -/
theorem HostTask.of_packet_deny {task : HostTask} {nowUs : Nat} {dst : SocketAddr}
    {reason : DenyReason} (hp : task.packet nowUs = some (dst, .deny reason)) :
    task = .act (.send dst (.deny reason)) := by
  cases task with
  | act action =>
    cases action with
    | send d c =>
      obtain ⟨rfl, rfl⟩ := Prod.mk.inj (Option.some.inj hp)
      rfl
    | clientJoined sender name => cases hp
    | clientLeft sender reason => cases hp
  | ping d | keepalive d | bye d => cases (Prod.mk.inj (Option.some.inj hp)).2

/-- A vouched WELCOME names the slot of the address it goes to. -/
theorem HostTask.Vouched.welcome {hs : HostHandshake} {task : HostTask} {nowUs : Nat}
    {dst : SocketAddr} {control : Control} (h : task.Vouched hs)
    (hp : task.packet nowUs = some (dst, control)) {id sessionId : UInt16} {sampleRate : UInt32}
    {frameSamples : UInt16} {codec : Codec} {roster : List PlayerInfo}
    (hw : control.wire = .welcome id sessionId sampleRate frameSamples codec roster) :
    ∃ i, hs.addrAt i = some dst ∧ id = senderId i := by
  cases task with
  | act action =>
    cases action with
    | send d c =>
      obtain ⟨rfl, rfl⟩ := Prod.mk.inj (Option.some.inj hp)
      cases c with
      | welcome id' _ _ _ _ _ =>
        obtain ⟨rfl, _⟩ := Control.welcome.inj hw
        exact h.1
      | _ => cases hw
    | clientJoined sender name => cases hp
    | clientLeft sender reason => cases hp
  | ping d | keepalive d | bye d =>
    obtain ⟨rfl, rfl⟩ := Prod.mk.inj (Option.some.inj hp)
    cases hw

namespace Host

theorem perform_packet {h : Host} {nowUs : Nat} {task : HostTask} {dst : SocketAddr}
    {control : Control} (hp : task.packet nowUs = some (dst, control)) :
    h.perform nowUs task =
      ({ h with seq := h.seq.next.2, hs := h.hs.afterSend dst control h.seq.val },
        some { dst := dst, bytes := stampedDatagram h.seq.val control h.shared.sessionId hostSenderId }) := by
  cases task with
  | act action =>
    cases action with
    | send d c =>
      obtain ⟨rfl, rfl⟩ := Prod.mk.inj (Option.some.inj hp)
      cases c <;> rfl
    | clientJoined sender name => cases hp
    | clientLeft sender reason => cases hp
  | ping d | keepalive d | bye d =>
    obtain ⟨rfl, rfl⟩ := Prod.mk.inj (Option.some.inj hp)
    rfl

/-- What stays when a task sends nothing, and what it tells the receive and the transmit thread. -/
structure Silent (task : HostTask) (h h' : Host) : Prop where
  hs : h'.hs = h.hs
  seq : h'.seq = h.seq
  sessionId : h'.shared.sessionId = h.shared.sessionId
  tasks : h'.tasks = h.tasks
  events : h'.events = h.events
  phase : h'.phase = h.phase
  nowMs : h'.nowMs = h.nowMs
  ring : h'.txRing = h.txRing
  rxTable : h'.rxTable = (task.update h.hs).toList.foldl AddrUpdate.apply h.rxTable
  txTable : h'.txTable = (task.update h.hs).toList.foldl AddrUpdate.apply h.txTable

theorem Silent.refl {task : HostTask} {h : Host} (ht : task.update h.hs = none) : Silent task h h :=
  ⟨rfl, rfl, rfl, rfl, rfl, rfl, rfl, rfl, by rw [ht]; rfl, by rw [ht]; rfl⟩

/-- The control thread tells both of the other threads. -/
theorem Silent.tell {task : HostTask} {h h' : Host} {u : AddrUpdate} (ht : task.update h.hs = some u)
    (hs : h'.hs = h.hs) (hseq : h'.seq = h.seq) (hshared : h'.shared.sessionId = h.shared.sessionId)
    (htasks : h'.tasks = h.tasks) (hevents : h'.events = h.events) (hphase : h'.phase = h.phase)
    (hnow : h'.nowMs = h.nowMs) (hring : h'.txRing = h.txRing)
    (hrx : h'.rxTable = u.apply h.rxTable) (htx : h'.txTable = u.apply h.txTable) : Silent task h h' :=
  ⟨hs, hseq, hshared, htasks, hevents, hphase, hnow, hring, by rw [ht]; exact hrx, by rw [ht]; exact htx⟩

theorem perform_silent {h : Host} {nowUs : Nat} {task : HostTask} (hp : task.packet nowUs = none) :
    Silent task h (h.perform nowUs task).1 ∧ (h.perform nowUs task).2 = none := by
  cases task with
  | act action =>
    cases action with
    | send d c => cases hp
    | clientJoined sender name =>
      rw [perform]
      dsimp only
      cases hslot : slotOfSender sender with
      | none => exact ⟨.refl (by rw [HostTask.update, hslot]; rfl), rfl⟩
      | some slot =>
        have ht : HostTask.update h.hs (.act (.clientJoined sender name)) =
            some (.client (UInt8.ofNat slot.val) (h.hs.clientAddr sender)) := by
          rw [HostTask.update, hslot]
          rfl
        exact ⟨.tell ht rfl rfl rfl rfl rfl rfl rfl rfl List.foldl_append List.foldl_append, rfl⟩
    | clientLeft sender reason =>
      rw [perform]
      dsimp only
      cases hslot : slotOfSender sender with
      | none => exact ⟨.refl (by rw [HostTask.update, hslot]; rfl), rfl⟩
      | some slot =>
        have ht : HostTask.update h.hs (.act (.clientLeft sender reason)) =
            some (.client (UInt8.ofNat slot.val) none) := by
          rw [HostTask.update, hslot]
          rfl
        exact ⟨.tell ht rfl rfl rfl rfl rfl rfl rfl rfl List.foldl_append List.foldl_append, rfl⟩
  | ping d | keepalive d | bye d => cases hp

/-! ## The kinds of step -/

/-- The handshake machine, the generator, the shared state and the channel of events are left alone, and
the other threads are not told anything new. -/
structure Calm (h h' : Host) : Prop where
  hs : h'.hs = h.hs
  seq : h'.seq = h.seq
  shared : h'.shared = h.shared
  events : h'.events = h.events
  ring : ∀ item ∈ h'.txRing, item ∈ h.txRing ∨ item.dest ≠ destPeer ∧ NoControl item.bytes
  rxTable : h'.rxTable = h.rxTable
  txTable : h'.txTable = h.txTable

/-- A PING, KEEPALIVE or BYE for somebody who has a slot. -/
def ForPeer (hs : HostHandshake) (task : HostTask) : Prop :=
  ∃ dst, (∃ i, hs.addrAt i = some dst) ∧
    (task = .ping dst ∨ task = .keepalive dst ∨ task = .bye dst)

/-- What a step without a datagram can do. -/
inductive Move (h : Host) : HostLabel → Host → Option Outgoing → Prop
  | sends {nowUs : Nat} {task : HostTask} {tasks : List HostTask} {dst : SocketAddr}
      {control : Control} (ht : h.tasks = task :: tasks)
      (hp : task.packet nowUs = some (dst, control)) :
    Move h (.control nowUs)
      { h with tasks := tasks, seq := h.seq.next.2, hs := h.hs.afterSend dst control h.seq.val }
      (some
        { dst := dst, bytes := stampedDatagram h.seq.val control h.shared.sessionId hostSenderId })
  | executes {nowUs : Nat} {task : HostTask} {tasks : List HostTask} {h' : Host}
      (ht : h.tasks = task :: tasks) (hp : task.packet nowUs = none)
      (hs : Silent task { h with tasks := tasks } h')
      (he : h' = ({ h with tasks := tasks }.perform nowUs task).1) : Move h (.control nowUs) h' none
  | feeds {nowUs : Nat} {slot : Fin maxClients} {h' : Host} (ht : h.tasks = [])
      (hphase : h.phase = .feed slot) (ht' : h'.tasks = [])
      (hs : h'.hs = if (h.shared.clients slot).lastRxUs > 0 then
        h.hs.markHeard (senderId slot) ((h.shared.clients slot).lastRxUs / 1000) else h.hs)
      (hc : Calm { h with hs := h'.hs } h') : Move h (.control nowUs) h' none
  | ticks {nowUs : Nat} (ht : h.tasks = []) (hphase : h.phase = .tick) :
    Move h (.control nowUs)
      { h with
        hs := (h.hs.tick h.nowMs).2, phase := .pings
        tasks := (h.hs.tick h.nowMs).1.map HostTask.act } none
  | takes {nowMs : Nat} {ev : CtrlEvent} {events : List CtrlEvent} (ht : h.tasks = [])
      (hev : h.events = ev :: events) :
    Move h (.wake nowMs)
      { h with
        shared := h.measure ev, hs := (dispatch h.hs h.shared.sessionId ev nowMs).2, nowMs := nowMs
        phase := .feed 0
        tasks := (dispatch h.hs h.shared.sessionId ev nowMs).1.map HostTask.act
        events := events } none
  | polls {l : HostLabel} {h' : Host} (ht : h.tasks = []) (hc : Calm h h')
      (ht' : ∀ task ∈ h'.tasks, ForPeer h.hs task) : Move h l h' none
  | transmits {item : TxItem} {ring : List TxItem} {dst : SocketAddr} {h' : Host}
      (hring : h.txRing = item :: ring) (hdst : h.tx.resolve item = some dst) (hc : Calm h h')
      (ht' : h'.tasks = h.tasks) : Move h .tx h' (some { dst := dst, bytes := item.bytes })
  | idles {l : HostLabel} {h' : Host} (hl : ∀ nowUs, l ≠ .control nowUs) (hc : Calm h h')
      (ht' : h'.tasks = h.tasks) : Move h l h' none

theorem forPeer_peers (h : Host) {f : SocketAddr → HostTask}
    (hf : ∀ dst, f dst = .ping dst ∨ f dst = .keepalive dst ∨ f dst = .bye dst) :
    ∀ task ∈ h.peers.map f, ForPeer h.hs task := by
  intro task ht
  obtain ⟨dst, hdst, rfl⟩ := List.mem_map.mp ht
  obtain ⟨⟨id, a⟩, ha, rfl⟩ := List.mem_map.mp hdst
  obtain ⟨i, _, hi⟩ := List.mem_filterMap.mp ha
  obtain ⟨s, hs', he⟩ := Option.map_eq_some_iff.mp hi
  obtain ⟨rfl, rfl⟩ := Prod.mk.inj he
  exact ⟨s.addr, ⟨i, addrAt_of_slots hs'⟩, hf s.addr⟩

theorem move_advance {h h' : Host} {nowUs : Nat} (ht : h.tasks = []) (ha : h.advance = some h') :
    Move h (.control nowUs) h' none := by
  have idle : ∀ task ∈ h.tasks, ForPeer h.hs task := by
    intro task htask
    rw [ht] at htask
    cases htask
  unfold advance at ha
  split at ha
  · split at ha <;> rw [← Option.some.inj ha]
    · refine .polls ht ⟨rfl, rfl, rfl, rfl, fun _ hm => .inl hm, rfl, rfl⟩ ?_
      simp only [List.map_append, List.mem_append, or_self]
      exact h.forPeer_peers fun dst => .inr (.inr rfl)
    · exact .polls ht ⟨rfl, rfl, rfl, rfl, fun _ hm => .inl hm, rfl, rfl⟩ idle
  · rename_i slot hphase
    split at ha <;> rw [← Option.some.inj ha] <;>
      exact .feeds ht hphase ht rfl ⟨rfl, rfl, rfl, rfl, fun _ hm => .inl hm, rfl, rfl⟩
  · rename_i hphase
    rw [← Option.some.inj ha]
    exact .ticks ht hphase
  · split at ha <;> rw [← Option.some.inj ha]
    · exact .polls ht ⟨rfl, rfl, rfl, rfl, fun _ hm => .inl hm, rfl, rfl⟩
        (h.forPeer_peers fun dst => .inl rfl)
    · exact .polls ht ⟨rfl, rfl, rfl, rfl, fun _ hm => .inl hm, rfl, rfl⟩ idle
  · split at ha <;> rw [← Option.some.inj ha]
    · exact .polls ht ⟨rfl, rfl, rfl, rfl, fun _ hm => .inl hm, rfl, rfl⟩
        (h.forPeer_peers fun dst => .inr (.inl rfl))
    · exact .polls ht ⟨rfl, rfl, rfl, rfl, fun _ hm => .inl hm, rfl, rfl⟩ idle
  · cases ha
  · cases ha

theorem move_wake {h : Host} (nowMs : Nat) (ht : h.tasks = []) :
    Move h (.wake nowMs) (h.wake nowMs) none := by
  unfold wake
  split
  · rename_i hev
    exact .takes ht hev
  · split
    · exact .polls ht ⟨rfl, rfl, rfl, rfl, fun _ hm => .inl hm, rfl, rfl⟩
        (h.forPeer_peers fun dst => .inr (.inr rfl))
    · exact .idles (fun _ hl => by cases hl) ⟨rfl, rfl, rfl, rfl, fun _ hm => .inl hm, rfl, rfl⟩ rfl

/-- Every step is one of these. -/
theorem move_of_step {h h' : Host} {l : HostLabel} {out : Option Outgoing}
    (hs : h.step l = some (h', out)) : Move h l h' out := by
  cases l with
  | control nowUs =>
    rw [step] at hs
    split at hs
    · rename_i task tasks htasks
      have hs := Option.some.inj hs
      cases hp : task.packet nowUs with
      | some p =>
        rw [perform_packet hp] at hs
        obtain ⟨rfl, rfl⟩ := Prod.mk.inj hs
        exact .sends htasks hp
      | none =>
        obtain ⟨hsilent, hout⟩ := perform_silent (h := { h with tasks := tasks }) hp
        rw [hs] at hsilent hout
        obtain rfl : out = none := hout
        exact .executes htasks hp hsilent (congrArg Prod.fst hs).symm
    · rename_i htasks
      obtain ⟨h2, ha, he⟩ := Option.map_eq_some_iff.mp hs
      obtain ⟨rfl, rfl⟩ := Prod.mk.inj he
      exact move_advance htasks ha
  | wake nowMs =>
    rw [step] at hs
    split at hs
    · rename_i hw
      obtain ⟨rfl, rfl⟩ := Prod.mk.inj (Option.some.inj hs)
      exact move_wake nowMs hw.1
    · cases hs
  | rx =>
    obtain ⟨h2, ha, he⟩ := Option.map_eq_some_iff.mp hs
    obtain ⟨rfl, rfl⟩ := Prod.mk.inj he
    unfold rxAdvance at ha
    split at ha
    · rw [← Option.some.inj ha]
      exact .idles (fun _ hl => by cases hl) ⟨rfl, rfl, rfl, rfl, fun _ hm => .inl hm, rfl, rfl⟩ rfl
    · split at ha
      · rename_i u us hu
        rw [← Option.some.inj ha]
        refine .idles (fun _ hl => by cases hl) ⟨rfl, rfl, rfl, rfl, fun _ hm => .inl hm, ?_, rfl⟩ rfl
        rw [rxTable, rxTable, hu, List.foldl_cons, RxState.update_clientAddrs]
      · rw [← Option.some.inj ha]
        exact .idles (fun _ hl => by cases hl) ⟨rfl, rfl, rfl, rfl, fun _ hm => .inl hm, rfl, rfl⟩ rfl
    · cases ha
    · cases ha
  | rxTimeout =>
    rw [step] at hs
    split at hs
    · obtain ⟨rfl, rfl⟩ := Prod.mk.inj (Option.some.inj hs)
      exact .idles (fun _ hl => by cases hl) ⟨rfl, rfl, rfl, rfl, fun _ hm => .inl hm, rfl, rfl⟩ rfl
    · cases hs
  | audio encoded =>
    obtain ⟨h2, ha, he⟩ := Option.map_eq_some_iff.mp hs
    obtain ⟨rfl, rfl⟩ := Prod.mk.inj he
    obtain ⟨⟨emitted, pipeline⟩, hp, rfl⟩ := Option.map_eq_some_iff.mp ha
    refine .idles (fun _ hl => by cases hl) ⟨rfl, rfl, rfl, rfl, fun item hm => ?_, rfl, rfl⟩ rfl
    rcases List.mem_append.mp hm with hm | hm
    · exact .inl hm
    · obtain ⟨⟨slot, bytes⟩, hmem, rfl⟩ := List.mem_map.mp (List.mem_of_mem_take hm)
      obtain ⟨⟨emitted', q⟩, hsend, he⟩ := Option.bind_eq_some_iff.mp hp
      rw [← (Prod.mk.inj (Option.some.inj he)).1] at hmem
      exact .inr (HostPipeline.sendFrames_spec _ hsend _ hmem)
  | tx =>
    rw [step, txAdvance] at hs
    split at hs
    · obtain ⟨rfl, rfl⟩ := Prod.mk.inj (Option.some.inj hs)
      exact .idles (fun _ hl => by cases hl) ⟨rfl, rfl, rfl, rfl, fun _ hm => .inl hm, rfl, rfl⟩ rfl
    · split at hs
      · rename_i u us hu
        obtain ⟨rfl, rfl⟩ := Prod.mk.inj (Option.some.inj hs)
        refine .idles (fun _ hl => by cases hl) ⟨rfl, rfl, rfl, rfl, fun _ hm => .inl hm, rfl, ?_⟩ rfl
        rw [txTable, txTable, hu, List.foldl_cons, TxState.update_clients]
      · obtain ⟨rfl, rfl⟩ := Prod.mk.inj (Option.some.inj hs)
        exact .idles (fun _ hl => by cases hl) ⟨rfl, rfl, rfl, rfl, fun _ hm => .inl hm, rfl, rfl⟩ rfl
    · split at hs
      · rename_i item ring hring
        obtain ⟨rfl, rfl⟩ := Prod.mk.inj (Option.some.inj hs)
        have rest : ∀ it ∈ ring, it ∈ h.txRing ∨ it.dest ≠ destPeer ∧ NoControl it.bytes := by
          intro it hm
          rw [hring]
          exact .inl (List.mem_cons_of_mem _ hm)
        cases hdst : h.tx.resolve item with
        | some dst => exact .transmits hring hdst ⟨rfl, rfl, rfl, rfl, rest, rfl, rfl⟩ rfl
        | none => exact .idles (fun _ hl => by cases hl) ⟨rfl, rfl, rfl, rfl, rest, rfl, rfl⟩ rfl
      · obtain ⟨rfl, rfl⟩ := Prod.mk.inj (Option.some.inj hs)
        exact .idles (fun _ hl => by cases hl) ⟨rfl, rfl, rfl, rfl, fun _ hm => .inl hm, rfl, rfl⟩ rfl
    · cases hs
  | shutdown =>
    obtain ⟨rfl, rfl⟩ := Prod.mk.inj (Option.some.inj hs)
    exact .idles (fun _ hl => by cases hl) ⟨rfl, rfl, rfl, rfl, fun _ hm => .inl hm, rfl, rfl⟩ rfl

/-! ## One event -/

/-- How an event is handled after a sign of life from its sender. -/
inductive Dispatched (heard : HostHandshake) (sessionId : UInt16) (ev : CtrlEvent) (nowMs : Nat) :
    List HostAction × HostHandshake → Prop
  | hello (h : ev.control.packetType = .hello) :
      Dispatched heard sessionId ev nowMs (heard.onHello ev.src ev.control nowMs)
  | ack {ackedSeq : UInt16} {ackedType : UInt8} (h : ev.control = .ack ackedSeq ackedType) :
      Dispatched heard sessionId ev nowMs (heard.onAck ev.src ackedSeq nowMs)
  | bye (h : ev.control = .bye) (hsession : ev.header.sessionId = sessionId) :
      Dispatched heard sessionId ev nowMs (heard.onBye ev.src)
  | other (hhello : ev.control.packetType ≠ .hello)
      (hbye : ev.control = .bye → ev.header.sessionId ≠ sessionId) :
      Dispatched heard sessionId ev nowMs ([], heard)

/-- The handshake after the sign of life. -/
def heardFrom (hs : HostHandshake) (src : SocketAddr) (nowMs : Nat) : HostHandshake :=
  match hs.senderForAddr src with
  | some sender => hs.markHeard sender nowMs
  | none => hs

theorem dispatch_dispatched (hs : HostHandshake) (sessionId : UInt16) (ev : CtrlEvent) (nowMs : Nat) :
    Dispatched (heardFrom hs ev.src nowMs) sessionId ev nowMs (dispatch hs sessionId ev nowMs) := by
  obtain ⟨src, header, control, rxUs⟩ := ev
  cases control with
  | hello => exact .hello rfl
  | ack => exact .ack rfl
  | bye =>
    by_cases hsession : header.sessionId = sessionId
    · have hd : dispatch hs sessionId ⟨src, header, .bye, rxUs⟩ nowMs =
          (heardFrom hs src nowMs).onBye src := if_pos hsession
      rw [hd]
      exact .bye rfl hsession
    · have hd : dispatch hs sessionId ⟨src, header, .bye, rxUs⟩ nowMs =
          ([], heardFrom hs src nowMs) := if_neg hsession
      rw [hd]
      exact .other (fun h => PacketType.noConfusion h) fun _ => hsession
  | _ => exact .other (fun h => PacketType.noConfusion h) fun h => Control.noConfusion h

theorem dispatch_heard (hs : HostHandshake) (sessionId : UInt16) (ev : CtrlEvent) (nowMs : Nat) :
    ∃ heard, Keeps hs heard ∧
      ((∀ i, hs.addrAt i ≠ some ev.src) ∧ heard = hs ∨
        ∃ i, hs.addrAt i = some ev.src ∧ heard = hs.markHeard (senderId i) nowMs) ∧
      Dispatched heard sessionId ev nowMs (dispatch hs sessionId ev nowMs) := by
  refine ⟨heardFrom hs ev.src nowMs, ?_, ?_, dispatch_dispatched hs sessionId ev nowMs⟩
  · unfold heardFrom
    split
    · exact keeps_markHeard _ _ _
    · exact Keeps.refl hs
  · unfold heardFrom
    split
    · rename_i sender hsender
      obtain ⟨i, hi, rfl⟩ := senderForAddr_eq_some hsender
      exact .inr ⟨i, hi, rfl⟩
    · rename_i hnone
      exact .inl ⟨slotForAddr_eq_none.mp (Option.map_eq_none_iff.mp hnone), rfl⟩

theorem dispatch_spec (hs : HostHandshake) (sessionId : UInt16) (ev : CtrlEvent) (nowMs : Nat) :
    Moves (fun a => a = ev.src ∧ hs.Admits ev.control) hs (dispatch hs sessionId ev nowMs).2 ∧
      ∀ a ∈ (dispatch hs sessionId ev nowMs).1, (dispatch hs sessionId ev nowMs).2.Vouches a := by
  obtain ⟨heard, hk, _, hd⟩ := dispatch_heard hs sessionId ev nowMs
  generalize dispatch hs sessionId ev nowMs = r at hd ⊢
  cases hd with
  | hello h =>
    obtain ⟨hm, hv⟩ := onHello_spec heard ev.src ev.control nowMs
    refine ⟨hk.trans_moves (hm.mono fun a ha => ?_), hv⟩
    rwa [Admits, hk.roomCode] at ha
  | ack h => exact ⟨hk.trans_moves (keeps_onAck heard _ _ _).moves, fun a ha => by cases ha⟩
  | bye h hsession =>
    exact ⟨hk.trans_moves (moves_removeWhere heard _ _), vouches_removeWhere heard _ _⟩
  | other hhello hbye => exact ⟨hk.moves, fun a ha => by cases ha⟩

/-- Nobody is denied but for a HELLO that is not admitted or finds the room full. -/
theorem dispatch_deny {hs : HostHandshake} {sessionId : UInt16} {ev : CtrlEvent} {nowMs : Nat}
    {dst : SocketAddr} {reason : DenyReason}
    (h : .send dst (.deny reason) ∈ (dispatch hs sessionId ev nowMs).1) :
    dst = ev.src ∧ ev.control.packetType = .hello ∧
      (¬ hs.Admits ev.control ∨ ∀ i, ∃ a, hs.addrAt i = some a ∧ a ≠ ev.src) := by
  obtain ⟨heard, hk, _, hd⟩ := dispatch_heard hs sessionId ev nowMs
  generalize dispatch hs sessionId ev nowMs = r at hd h
  cases hd with
  | hello hcontrol =>
    obtain ⟨hdst, hwhy⟩ := onHello_deny h
    refine ⟨hdst, hcontrol, ?_⟩
    rw [Admits, hk.roomCode] at hwhy
    simp only [hk.addrAt] at hwhy
    exact hwhy
  | ack => cases h
  | bye => exact absurd h (deny_not_mem_removeWhere _ _ _ _ _)
  | other => cases h

/-- A slot is Active after an event if it was Active before or if the event came from its address and
is neither an admitted HELLO nor a BYE of this session. -/
theorem dispatch_active {hs : HostHandshake} (hd : hs.Distinct) {sessionId : UInt16} {ev : CtrlEvent}
    {nowMs : Nat} {k : Fin maxClients} {s' : HsSlot}
    (hk : (dispatch hs sessionId ev nowMs).2.slots k = some s') (ha : s'.state = .active) :
    (∃ s, hs.slots k = some s ∧ s.addr = s'.addr ∧ s.state = .active) ∨
      (s'.addr = ev.src ∧ ¬ hs.Admits ev.control ∧
        (ev.control = .bye → ev.header.sessionId ≠ sessionId)) := by
  obtain ⟨heard, hkeep, hheard, hdisp⟩ := dispatch_heard hs sessionId ev nowMs
  -- Before the packet itself is looked at.
  have before : ∀ s, heard.slots k = some s → s.state = .active →
      (∃ s0, hs.slots k = some s0 ∧ s0.addr = s.addr ∧ s0.state = .active) ∨ s.addr = ev.src := by
    intro s hs' hactive
    rcases hheard with ⟨_, rfl⟩ | ⟨i, hi, rfl⟩
    · exact .inl ⟨s, hs', rfl, hactive⟩
    · rcases markHeard_active hs' hactive with ⟨_, haddr⟩ | hold
      · exact .inr (Option.some.inj (haddr.symm.trans hi))
      · exact .inl hold
  have not_admitted : ev.control.packetType ≠ .hello → ¬ hs.Admits ev.control := by
    rintro hne ⟨_, _, _, he⟩
    rw [he] at hne
    exact hne rfl
  generalize dispatch hs sessionId ev nowMs = r at hdisp hk
  cases hdisp with
  | hello hcontrol =>
    obtain ⟨hcalm, hnone⟩ := calms_onHello heard (hkeep.distinct hd) ev.src ev.control nowMs
    obtain ⟨s, hs', haddr, hactive⟩ := hcalm k s' hk ha
    rcases before s hs' hactive with ⟨s0, h0, haddr0, hactive0⟩ | hsrc
    · exact .inl ⟨s0, h0, haddr0.trans haddr, hactive0⟩
    · refine .inr ⟨haddr.symm.trans hsrc, fun hadm => ?_, fun hbye => ?_⟩
      · refine hnone ?_ k s' hk (haddr.symm.trans hsrc) ha
        rwa [Admits, hkeep.roomCode]
      · rw [hbye] at hcontrol
        cases hcontrol
  | ack hcontrol =>
    have other : ¬ hs.Admits ev.control ∧ (ev.control = .bye → ev.header.sessionId ≠ sessionId) := by
      rw [hcontrol]
      exact ⟨fun ⟨_, _, _, he⟩ => (by cases he), fun hbye => by cases hbye⟩
    rcases onAck_active hk ha with haddr | ⟨s, hs', haddr, hactive⟩
    · exact .inr ⟨haddr, other⟩
    · rcases before s hs' hactive with ⟨s0, h0, haddr0, hactive0⟩ | hsrc
      · exact .inl ⟨s0, h0, haddr0.trans haddr, hactive0⟩
      · exact .inr ⟨haddr.symm.trans hsrc, other⟩
  | bye =>
    have hk' : (if (heard.slots k).any (fun s => s.addr = ev.src) then none else heard.slots k) =
        some s' := hk
    split at hk'
    · cases hk'
    · rename_i hne
      rcases before s' hk' ha with hold | hsrc
      · exact .inl hold
      · rw [hk', Option.any_some, hsrc] at hne
        exact absurd (decide_eq_true rfl) hne
  | other hhello hbye =>
    rcases before s' hk ha with hold | hsrc
    · exact .inl hold
    · exact .inr ⟨hsrc, not_admitted hhello, hbye⟩

theorem measure_sessionId (h : Host) (ev : CtrlEvent) :
    (h.measure ev).sessionId = h.shared.sessionId := by
  unfold measure
  split <;> rfl

/-! ## The invariant -/

/-- What holds of the control loop between any two steps. -/
structure Inv (h : Host) : Prop where
  distinct : h.hs.Distinct
  sessionId : h.hs.sessionId = h.shared.sessionId
  tasks : ∀ task ∈ h.tasks, task.Vouched h.hs

theorem inv_new (cfg : HostConfig) : (Host.new cfg).Inv where
  distinct := by
    intro i j a hi
    cases hi
  sessionId := rfl
  tasks := by
    intro task ht
    cases ht

/-- A HELLO from this address that the host admits waits in the channel. -/
def Greeted (h : Host) (a : SocketAddr) : Prop :=
  ∃ ev ∈ h.events, a = ev.src ∧ h.hs.Admits ev.control

theorem ForPeer.vouched {hs : HostHandshake} {task : HostTask} (h : ForPeer hs task) :
    task.Vouched hs := by
  obtain ⟨dst, hdst, rfl | rfl | rfl⟩ := h <;> exact hdst

theorem keeps_feed (hs : HostHandshake) (p : Prop) [Decidable p] (sender : UInt16) (nowMs : Nat) :
    Keeps hs (if p then hs.markHeard sender nowMs else hs) := by
  split
  · exact keeps_markHeard _ _ _
  · exact Keeps.refl hs

/-- A step moves no address from one slot to another, and a new address has greeted. -/
theorem Move.moves {h h' : Host} {l : HostLabel} {out : Option Outgoing} (hm : Move h l h' out) :
    Moves h.Greeted h.hs h'.hs := by
  cases hm with
  | sends ht hp => exact (keeps_afterSend _ _ _ _).moves
  | executes ht hp hs =>
    rw [hs.hs]
    exact (Keeps.refl _).moves
  | feeds ht hphase ht' hs hc =>
    rw [hs]
    exact (keeps_feed _ _ _ _).moves
  | ticks ht hphase => exact moves_tick _ _
  | takes ht hev =>
    refine (dispatch_spec _ _ _ _).1.mono fun a ha => ⟨_, ?_, ha⟩
    rw [hev]
    exact List.mem_cons_self
  | polls ht hc ht' =>
    rw [hc.hs]
    exact (Keeps.refl _).moves
  | transmits hring hdst hc ht' =>
    rw [hc.hs]
    exact (Keeps.refl _).moves
  | idles _ hc ht' =>
    rw [hc.hs]
    exact (Keeps.refl _).moves

theorem Move.sessionId {h h' : Host} {l : HostLabel} {out : Option Outgoing}
    (hm : Move h l h' out) : h'.shared.sessionId = h.shared.sessionId := by
  cases hm with
  | sends ht hp => rfl
  | executes ht hp hs => exact hs.sessionId
  | feeds ht hphase ht' hs hc => rw [hc.shared]
  | ticks ht hphase => rfl
  | takes ht hev => exact h.measure_sessionId _
  | polls ht hc ht' => rw [hc.shared]
  | transmits hring hdst hc ht' => rw [hc.shared]
  | idles _ hc ht' => rw [hc.shared]

theorem Move.inv {h h' : Host} {l : HostLabel} {out : Option Outgoing} (hm : Move h l h' out)
    (hi : h.Inv) : h'.Inv := by
  refine ⟨hm.moves.distinct hi.distinct, by rw [hm.moves.sessionId, hm.sessionId, hi.sessionId], ?_⟩
  intro task htask
  cases hm with
  | sends ht hp =>
    exact (hi.tasks task (by rw [ht]; exact List.mem_cons_of_mem _ htask)).afterSend _ _ _
  | executes ht hp hs =>
    rw [hs.hs]
    rw [hs.tasks] at htask
    exact hi.tasks task (by rw [ht]; exact List.mem_cons_of_mem _ htask)
  | feeds ht hphase ht' hs hc =>
    rw [ht'] at htask
    cases htask
  | ticks ht hphase =>
    obtain ⟨a, ha, rfl⟩ := List.mem_map.mp htask
    exact vouches_tick _ _ a ha
  | takes ht hev =>
    obtain ⟨a, ha, rfl⟩ := List.mem_map.mp htask
    exact (dispatch_spec _ _ _ _).2 a ha
  | polls ht hc ht' =>
    rw [hc.hs]
    exact (ht' task htask).vouched
  | transmits hring hdst hc ht' =>
    rw [hc.hs]
    exact hi.tasks task (ht' ▸ htask)
  | idles _ hc ht' =>
    rw [hc.hs]
    exact hi.tasks task (ht' ▸ htask)

/-- Only the receive thread puts events into the channel. -/
theorem Move.events {h h' : Host} {l : HostLabel} {out : Option Outgoing} (hm : Move h l h' out) :
    ∀ ev ∈ h'.events, ev ∈ h.events := by
  intro ev hmem
  cases hm with
  | sends ht hp => exact hmem
  | executes ht hp hs => exact hs.events ▸ hmem
  | feeds ht hphase ht' hs hc => exact hc.events ▸ hmem
  | ticks ht hphase => exact hmem
  | takes ht hev =>
    rw [hev]
    exact List.mem_cons_of_mem _ hmem
  | polls ht hc ht' => exact hc.events ▸ hmem
  | transmits hring hdst hc ht' => exact hc.events ▸ hmem
  | idles _ hc ht' => exact hc.events ▸ hmem

/-- A DENY waits from before or answers a HELLO from the channel. -/
theorem Move.deny {h h' : Host} {l : HostLabel} {out : Option Outgoing} (hm : Move h l h' out)
    {dst : SocketAddr} {reason : DenyReason} (hd : .act (.send dst (.deny reason)) ∈ h'.tasks) :
    .act (.send dst (.deny reason)) ∈ h.tasks ∨ ∃ ev ∈ h.events, dst = ev.src ∧
      ev.control.packetType = .hello ∧
      (¬ h.hs.Admits ev.control ∨ ∀ i, ∃ a, h.hs.addrAt i = some a ∧ a ≠ ev.src) := by
  cases hm with
  | sends ht hp =>
    rw [ht]
    exact .inl (List.mem_cons_of_mem _ hd)
  | executes ht hp hs =>
    rw [hs.tasks] at hd
    rw [ht]
    exact .inl (List.mem_cons_of_mem _ hd)
  | feeds ht hphase ht' hs hc =>
    rw [ht'] at hd
    cases hd
  | ticks ht hphase =>
    obtain ⟨a, ha, hact⟩ := List.mem_map.mp hd
    obtain rfl := HostTask.act.inj hact
    exact absurd ha (deny_not_mem_tick _ _ _ _)
  | takes ht hev =>
    obtain ⟨a, ha, hact⟩ := List.mem_map.mp hd
    obtain rfl := HostTask.act.inj hact
    refine .inr ⟨_, ?_, dispatch_deny ha⟩
    rw [hev]
    exact List.mem_cons_self
  | polls ht hc ht' =>
    obtain ⟨_, _, h | h | h⟩ := ht' _ hd <;> cases h
  | transmits hring hdst hc ht' => exact .inl (ht' ▸ hd)
  | idles _ hc ht' => exact .inl (ht' ▸ hd)

/-- The receive thread takes this datagram for audio of slot `k`. -/
def TakesAudio (h : Host) (src : SocketAddr) (bytes : Bytes) (k : Fin maxClients) : Prop :=
  ∃ header audio, parseDatagram (bytes.take maxDatagram) = some (.ok (header, .audio audio)) ∧
    header.sessionId = h.shared.sessionId ∧ slotOfSender header.senderId = some k ∧
    h.rx.clientAddrs k = some src

/-- What the arrival of a datagram leaves alone. A PING is answered by a PONG, and the other control
packets go to the control loop. -/
structure Received (h : Host) (src : SocketAddr) (bytes : Bytes) (h' : Host) (out : Option Outgoing) :
    Prop where
  hs : h'.hs = h.hs
  seq : h'.seq = h.seq
  tasks : h'.tasks = h.tasks
  phase : h'.phase = h.phase
  nowMs : h'.nowMs = h.nowMs
  sessionId : h'.shared.sessionId = h.shared.sessionId
  ring : h'.txRing = h.txRing
  rxTable : h'.rxTable = h.rxTable
  txTable : h'.txTable = h.txTable
  /-- A stream changes only for the source address that the thread has for its slot. -/
  clients : ∀ k, h'.shared.clients k = h.shared.clients k ∨ h.rx.clientAddrs k = some src ∧
    (h'.shared.clients k).active = (h.shared.clients k).active
  jb : ∀ k, (h'.shared.clients k).jb = (h.shared.clients k).jb ∨ h.TakesAudio src bytes k
  reply : ∀ o, out = some o → o.dst = src ∧ ¬ NoControl bytes ∧
    ∃ header t1Us t2Us t3Us, Parses o.bytes header (.control (.pong t1Us t2Us t3Us))
  event : h'.events = h.events ∨ ∃ header control rxUs, Parses bytes header (.control control) ∧
    h'.events = h.events ++ [⟨src, header, control, rxUs⟩]

theorem receive_spec {h h' : Host} {src : SocketAddr} {bytes : Bytes} {nowUs t3Us : Nat}
    {o : Option Outgoing} (hr : h.receive src bytes nowUs t3Us = some (h', o)) :
    Received h src bytes h' o := by
  unfold receive at hr
  split at hr
  · obtain ⟨rfl, rfl⟩ := Prod.mk.inj (Option.some.inj hr)
    have ignored : Received h src bytes
        { h with rxPhase := .check, events := h.events ++ [] } none :=
      ⟨rfl, rfl, rfl, rfl, rfl, rfl, rfl, rfl, rfl, fun k => .inl rfl, fun k => .inl rfl,
        fun o ho => (by cases ho), .inl (List.append_nil _)⟩
    -- One stream is replaced.
    have replaced : ∀ (slot : Fin maxClients) (stream : StreamShared),
        h.rx.clientAddrs slot = some src → stream.active = (h.shared.clients slot).active → ∀ k,
          (h.shared.setClient slot stream).clients k = h.shared.clients k ∨
            h.rx.clientAddrs k = some src ∧
              ((h.shared.setClient slot stream).clients k).active = (h.shared.clients k).active := by
      intro slot stream haddr hactive k
      show Function.update h.shared.clients slot stream k = _ ∨ _ ∧
        (Function.update h.shared.clients slot stream k).active = _
      by_cases hk : k = slot
      · subst hk
        rw [Function.update_self]
        exact .inr ⟨haddr, hactive⟩
      · exact .inl (Function.update_of_ne hk _ _)
    unfold routeHost
    split
    · -- A PING.
      rename_i header t1Us hping
      refine ⟨rfl, rfl, rfl, rfl, rfl, rfl, rfl, rfl, rfl, fun k => .inl rfl, fun k => .inl rfl,
        fun o ho => ?_, .inl (List.append_nil _)⟩
      obtain ⟨b, hb, rfl⟩ := Option.map_eq_some_iff.mp ho
      obtain ⟨b', hb', hp⟩ := parses_pongReply header hostSenderId t1Us nowUs t3Us
      rw [hb'] at hb
      rw [← Option.some.inj hb]
      exact ⟨rfl, fun hno => hno _ _ hping, _, _, _, _, hp⟩
    · -- Audio.
      rename_i header audio hp
      split
      · exact ignored
      rename_i hsession
      split
      · exact ignored
      rename_i slot hslot
      split
      · exact ignored
      · rename_i haddr
        refine ⟨rfl, rfl, rfl, rfl, rfl, rfl, rfl, rfl, rfl, replaced _ _ (not_not.mp haddr) rfl,
          fun k => ?_, fun o ho => (by cases ho), .inl (List.append_nil _)⟩
        by_cases hk : k = slot
        · subst hk
          exact .inr ⟨header, audio, hp, not_not.mp hsession, hslot, not_not.mp haddr⟩
        · exact .inl (congrArg StreamShared.jb (Function.update_of_ne hk _ _))
    · -- Control goes to the control thread.
      rename_i header control hne hp
      refine ⟨rfl, rfl, rfl, rfl, rfl, ?_, rfl, rfl, rfl, ?_, ?_, fun o ho => (by cases ho),
        .inr ⟨header, control, nowUs, hp, rfl⟩⟩
      · dsimp only
        split
        · split <;> rfl
        · rfl
      · dsimp only
        split
        · split
          · rename_i haddr
            exact replaced _ _ haddr rfl
          · exact fun k => .inl rfl
        · exact fun k => .inl rfl
      · intro k
        dsimp only
        split
        · split
          · rename_i slot _ _
            left
            show (Function.update h.shared.clients slot _ k).jb = _
            by_cases hk : k = slot
            · rw [hk, Function.update_self]
            · rw [Function.update_of_ne hk]
          · exact .inl rfl
        · exact .inl rfl
    · exact ignored
  · cases hr

end Host

end OnlineJam
