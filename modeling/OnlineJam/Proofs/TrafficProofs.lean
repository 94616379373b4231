import Mathlib.Algebra.BigOperators.Ring.List
import OnlineJam.Proofs.OutsiderProofs
import OnlineJam.Proofs.TransmitProofs

/-!
# Host process: what strangers get out of it

Somebody who never sends an admitted HELLO is sent at most one datagram for each of his own, and at most
twice their bytes. Every answer he is given, or will be given, is paid for by a datagram of his.
-/

namespace OnlineJam

open OnlineJam.Lib
open HostHandshake

/-! ## Sizes -/

theorem length_stampedDatagram (seq : UInt16) {control : Control} (sessionId senderId : UInt16)
    (hr : control.RosterFits) : (stampedDatagram seq control sessionId senderId).length =
      headerLen + control.wire.encode.length := by
  have hlen : headerLen + control.wire.encode.length ≤ (List.replicate maxDatagram (0 : UInt8)).length := by
    rw [List.length_replicate]
    exact Control.encode_length_le (Control.fits_wire hr)
  obtain ⟨buf, hw, hbuf, -⟩ := Payload.write_parseDatagram
    (h := { ptype := control.packetType, sessionId := sessionId, senderId := senderId, seq := seq })
    (p := .control control) (List.replicate maxDatagram 0) control.packetType_wire.symm
    (Control.fits_wire hr) hlen
  have hs : stampedDatagram seq control sessionId senderId =
      buf.take (headerLen + control.wire.encode.length) := by
    unfold stampedDatagram
    dsimp only
    rw [show control.write _ _ = _ from hw]
    rfl
  rw [hs, List.length_take_of_le (by rw [hbuf]; exact hlen)]

theorem length_pongReply {header : Header} {senderId : UInt16} {t1Us : UInt64} {nowUs t3Us : Nat}
    {reply : Bytes} (h : pongReply header senderId t1Us nowUs t3Us = some reply) :
    reply.length = 32 := by
  let pong : Control := .pong t1Us (UInt64.ofNat nowUs) (UInt64.ofNat t3Us)
  let pongHeader : Header :=
    { ptype := .pong, sessionId := header.sessionId, senderId := senderId, seq := header.seq }
  have hsize : headerLen + pong.wire.encode.length = 32 := by
    simp [pong, Control.wire, Control.encode, headerLen]
  obtain ⟨buf, hw, hbuf, -⟩ := Payload.write_parseDatagram
    (h := pongHeader) (p := .control pong) (List.replicate 64 0) rfl (Control.fits_wire trivial)
    (by rw [show (Payload.control pong).wire.encode = pong.wire.encode from rfl, hsize]; decide)
  have hw : pong.write pongHeader (List.replicate 64 0) = some (buf, 32) :=
    hw.trans (by rw [← hsize]; rfl)
  simp only [pongReply, show Control.pong t1Us _ _ = pong from rfl,
    show (Header.mk _ _ _ _) = pongHeader from rfl, hw, Option.bind_eq_bind,
    Option.bind_some, Option.pure_def, Option.some.injEq] at h
  rw [← h, List.length_take_of_le]
  rw [hbuf, List.length_replicate]
  decide

/-- A control packet takes at least its own bytes. -/
theorem length_of_parses {bytes : Bytes} {header : Header} {control : Control}
    (h : Parses bytes header (.control control)) : headerLen + control.encode.length ≤ bytes.length := by
  obtain ⟨hcan, ht, -⟩ := (parseDatagram_sound _).2 _ _ h
  have hself : canonical header (bytes.take maxDatagram) = bytes.take maxDatagram := by
    have hne : header.ptype ≠ .audio := by
      rw [ht]
      exact control.packetType_ne_audio
    unfold canonical
    split
    · exact absurd ‹_› hne
    · rfl
  rw [hself] at hcan
  have hlen := congrArg List.length hcan
  rw [List.length_append, Header.encode_length] at hlen
  have hle : (bytes.take maxDatagram).length ≤ bytes.length := List.length_take_le' _ _
  exact hlen ▸ hle

namespace Host

/-! ## Debts -/

/-- An event that a DENY to `a` may follow. -/
def greets (a : SocketAddr) (ev : CtrlEvent) : Bool := ev.src = a && ev.control.packetType = .hello

/-- A DENY to `a`. -/
def refuses (a : SocketAddr) : HostTask → Bool
  | .act (.send dst (.deny _)) => dst = a
  | _ => false

/-- How many answers to `a` are still to be sent. -/
def owes (a : SocketAddr) (h : Host) : Nat := h.events.countP (greets a) + h.tasks.countP (refuses a)

/-- A size of datagrams in which a datagram is worth what it can make the host send: a HELLO a DENY, of
the size `price`, and a PING a PONG. -/
structure Fair (size worth : Bytes → Nat) (price : Nat) : Prop where
  denied : ∀ seq reason sessionId senderId, size (stampedDatagram seq (.deny reason) sessionId senderId) ≤ price
  greeted : ∀ bytes header control, Parses bytes header (.control control) →
    control.packetType = .hello → price ≤ worth bytes
  echoed : ∀ bytes header t1Us senderId nowUs t3Us reply, Parses bytes header (.control (.ping t1Us)) →
    pongReply header senderId t1Us nowUs t3Us = some reply → size reply ≤ worth bytes

theorem fair_count : Fair (fun _ => 1) (fun _ => 1) 1 where
  denied _ _ _ _ := le_rfl
  greeted _ _ _ _ _ := le_rfl
  echoed _ _ _ _ _ _ _ _ _ := le_rfl

/-- A PONG has twice the bytes of a PING, and a DENY fewer than a HELLO. -/
theorem fair_volume : Fair List.length (fun bytes => 2 * bytes.length) 9 where
  denied seq reason sessionId senderId := by
    have hr : (Control.deny reason).RosterFits := trivial
    exact (length_stampedDatagram seq sessionId senderId hr).le
  greeted bytes header control hp ht := by
    have hlen := length_of_parses hp
    cases control with
    | hello protoVersion roomCode name codecMask frameMask =>
      simp only [headerLen] at hlen
      omega
    | _ => cases ht
  echoed bytes header t1Us senderId nowUs t3Us reply hp hr := by
    have hlen := length_of_parses hp
    simp only [headerLen, Control.encode, u64ToBe_length] at hlen
    rw [length_pongReply hr]
    omega

/-! ## Strangers -/

/-- The host has never heard an admitted HELLO from `a`, and nothing that it does goes to `a` but answers
to his own datagrams. -/
structure Stranger (cfg : HostConfig) (a : SocketAddr) (h : Host) : Prop where
  consistent : h.Consistent
  code : h.hs.roomCode = cfg.roomCode
  slot : ∀ i, h.hs.addrAt i ≠ some a
  events : ∀ ev ∈ h.events, ev.src = a → ¬ h.hs.Admits ev.control
  table : ∀ k, h.tx.clients k ≠ some a
  updates : ∀ slot, AddrUpdate.client slot (some a) ∉ h.txUpdates
  dest : ∀ item ∈ h.txRing, item.dest ≠ destPeer

theorem stranger_new (cfg : HostConfig) (a : SocketAddr) : Stranger cfg a (Host.new cfg) where
  consistent := consistent_new cfg
  code := rfl
  slot i hi := by cases hi
  events ev hev := by cases hev
  table k hk := by cases hk
  updates slot hm := by cases hm
  dest item hm := by cases hm

/-- The transmit thread never learns the address of a stranger. -/
theorem Stranger.next_tx {cfg : HostConfig} {a : SocketAddr} {h h' : Host} {e : HostEvent}
    (hi : Stranger cfg a h) (hn : h.next e = some h') : (∀ k, h'.tx.clients k ≠ some a) ∧
      (∀ slot, AddrUpdate.client slot (some a) ∉ h'.txUpdates) ∧ ∀ item ∈ h'.txRing, item.dest ≠ destPeer := by
  have rests : SameTx h h' → (∀ k, h'.tx.clients k ≠ some a) ∧
      (∀ slot, AddrUpdate.client slot (some a) ∉ h'.txUpdates) ∧ ∀ item ∈ h'.txRing, item.dest ≠ destPeer := by
    intro hs
    rw [hs.tx, hs.updates, hs.ring]
    exact ⟨hi.table, hi.updates, hi.dest⟩
  rcases Host.next_tx hn with ⟨l, rfl, hm⟩ | ⟨-, hs⟩
  · cases hm with
    | rests _ _ hs => exact rests hs
    | @tells nowUs task tasks u h' ht hu htx hup hring =>
      refine ⟨htx ▸ hi.table, fun slot hm => ?_, hring ▸ hi.dest⟩
      rw [hup] at hm
      rcases List.mem_append.mp hm with hm | hm
      · exact hi.updates slot hm
      have hv := hi.consistent.inv.tasks task (ht ▸ List.mem_cons_self)
      rw [← List.mem_singleton.mp hm] at hu
      cases task with
      | act action =>
        cases action with
        | send dst control => cases hu
        | clientJoined sender name =>
          obtain ⟨i, s, rfl, -, -⟩ := hv
          rw [update_clientJoined] at hu
          exact hi.slot i (AddrUpdate.client.inj (Option.some.inj hu)).2
        | clientLeft sender reason =>
          obtain ⟨i, rfl⟩ := hv
          rw [update_clientLeft] at hu
          cases (AddrUpdate.client.inj (Option.some.inj hu)).2
      | ping d | keepalive d | bye d => cases hu
    | @learns u us hphase hup =>
      have hmem : u ∈ h.txUpdates := hup ▸ List.mem_cons_self
      refine ⟨fun k hk => ?_, fun slot hm => hi.updates slot (hup ▸ List.mem_cons_of_mem _ hm), hi.dest⟩
      have hk : (h.tx.update u).clients k = some a := hk
      rw [TxState.update_clients] at hk
      unfold AddrUpdate.apply at hk
      split at hk
      · split at hk
        · rw [Function.update_apply] at hk
          split at hk
          · exact hi.updates _ (hk ▸ hmem)
          · exact hi.table k hk
        · exact hi.table k hk
      · exact hi.table k hk
    | @queues encoded items h' hroom hdest htx hup hring =>
      refine ⟨htx ▸ hi.table, hup ▸ hi.updates, fun item hm => ?_⟩
      rw [hring] at hm
      rcases List.mem_append.mp hm with hm | hm
      · exact hi.dest item hm
      · exact hdest item hm
    | @pops item ring hphase hring =>
      exact ⟨hi.table, hi.updates, fun it hm => hi.dest it (hring ▸ List.mem_cons_of_mem _ hm)⟩
  · exact rests hs

/-! ## What a datagram does -/

/-- A datagram is a PING that is answered, or a control packet that goes into the channel, or neither. -/
theorem routeHost_paid (cfg : RxConfig) (rx : RxState) (shared : HostShared) (src : SocketAddr)
    (bytes : Bytes) (nowUs t3Us : Nat) :
    let r := routeHost cfg nowUs t3Us rx shared src bytes
    (r.event = none ∧ ∀ reply, r.reply = some reply → ∃ header t1Us,
      Parses bytes header (.control (.ping t1Us)) ∧
        pongReply header hostSenderId t1Us nowUs t3Us = some reply) ∨
    (r.reply = none ∧ ∀ ev, r.event = some ev →
      ev.src = src ∧ ∃ header, Parses bytes header (.control ev.control)) := by
  have ignored : (none : Option Bytes) = none ∧ ∀ ev, (none : Option CtrlEvent) = some ev →
      ev.src = src ∧ ∃ header, Parses bytes header (.control ev.control) :=
    ⟨rfl, fun ev hev => by cases hev⟩
  dsimp only
  unfold routeHost
  split
  · rename_i header t1Us hp
    exact .inl ⟨rfl, fun reply hr => ⟨header, t1Us, hp, hr⟩⟩
  · refine .inr ?_
    split
    · exact ignored
    split
    · exact ignored
    split
    · exact ignored
    · exact ⟨rfl, fun ev hev => by cases hev⟩
  · rename_i header control _ hp
    refine .inr ⟨rfl, fun ev hev => ?_⟩
    rw [← Option.some.inj hev]
    exact ⟨rfl, header, hp⟩
  · exact .inr ignored

theorem Stranger.next {cfg : HostConfig} {a : SocketAddr} {h h' : Host} {e : HostEvent}
    (hi : Stranger cfg a h) (hc : e.Uninvited cfg a) (hn : h.next e = some h') : Stranger cfg a h' := by
  obtain ⟨table, updates, dest⟩ := hi.next_tx hn
  have hcons := hi.consistent.next hn
  have admits : h'.hs.roomCode = h.hs.roomCode → ∀ ev ∈ h.events, ev.src = a →
      ¬ h'.hs.Admits ev.control := by
    intro hcode ev hev hsrc
    rw [Admits, hcode]
    exact hi.events ev hev hsrc
  cases e with
  | step l =>
    obtain ⟨⟨h2, out⟩, hs, rfl⟩ := Option.map_eq_some_iff.mp hn
    have hm := move_of_step hs
    refine ⟨hcons, hm.moves.roomCode.trans hi.code, fun i haddr => ?_,
      fun ev hev => admits hm.moves.roomCode ev (hm.events ev hev), table, updates, dest⟩
    rcases hm.moves.addrAt with hold | ⟨k, b, ⟨ev, hev, rfl, hadm⟩, -, -, hnew⟩
    · rcases hold i with he | he
      · exact hi.slot i (he.symm.trans haddr)
      · rw [he] at haddr
        cases haddr
    · rw [hnew i] at haddr
      split at haddr
      · exact hi.events ev hev (Option.some.inj haddr) hadm
      · exact hi.slot i haddr
  | recv src bytes nowUs t3Us =>
    obtain ⟨⟨h2, out⟩, hr, rfl⟩ := Option.map_eq_some_iff.mp hn
    have hrec := receive_spec hr
    refine ⟨hcons, by rw [hrec.hs]; exact hi.code, fun i => by rw [hrec.hs]; exact hi.slot i,
      fun ev hev hsrc => ?_, table, updates, dest⟩
    have hold := admits (by rw [hrec.hs])
    rcases hrec.event with he | ⟨header, control, rxUs, hp, he⟩
    · exact hold ev (he ▸ hev) hsrc
    · rw [he] at hev
      rcases List.mem_append.mp hev with hev | hev
      · exact hold ev hev hsrc
      · rw [List.mem_singleton.mp hev] at hsrc ⊢
        rintro ⟨name, codecMask, frameMask, hhello⟩
        rw [hrec.hs, hi.code] at hhello
        rw [show control = _ from hhello] at hp
        exact hc hsrc _ _ _ _ hp
  | read slot op =>
    obtain rfl := Option.some.inj hn
    exact ⟨hcons, hi.code, hi.slot, hi.events, table, updates, dest⟩
  | mix player setting =>
    obtain rfl := Option.some.inj hn
    exact ⟨hcons, hi.code, hi.slot, hi.events, table, updates, dest⟩

/-! ## Accounts -/

/-- What is sent to `a`. -/
def cost (size : Bytes → Nat) (a : SocketAddr) : Option Outgoing → Nat
  | some o => if o.dst = a then size o.bytes else 0
  | none => 0

/-- What `a` pays. -/
def income (worth : Bytes → Nat) (a : SocketAddr) : HostEvent → Nat
  | .recv src bytes _ _ => if src = a then worth bytes else 0
  | _ => 0

/-- A datagram pays for the PONG that it is answered with, or for the DENY that its event may cause. -/
theorem routeHost_pays {a : SocketAddr} {size worth : Bytes → Nat} {price : Nat}
    (hf : Fair size worth price) (cfg : RxConfig) (rx : RxState) (shared : HostShared) (src : SocketAddr)
    (bytes : Bytes) (nowUs t3Us : Nat) :
    let r := routeHost cfg nowUs t3Us rx shared src bytes
    cost size a (r.reply.map fun bytes => { dst := src, bytes := bytes }) +
      price * r.event.toList.countP (greets a) ≤ income worth a (.recv src bytes nowUs t3Us) := by
  have hr := routeHost_paid cfg rx shared src bytes nowUs t3Us
  dsimp only at hr ⊢
  generalize routeHost cfg nowUs t3Us rx shared src bytes = r at hr ⊢
  rcases hr with ⟨hev, hreply⟩ | ⟨hreply, hev⟩
  · rw [hev]
    cases he : r.reply with
    | none => exact Nat.zero_le _
    | some reply =>
      obtain ⟨header, t1Us, hp, hpong⟩ := hreply reply he
      rw [Option.map_some, cost, income]
      split
      · exact hf.echoed _ _ _ _ _ _ _ hp hpong
      · exact le_rfl
  · rw [hreply, Option.map_none, cost, Nat.zero_add]
    cases he : r.event with
    | none => exact Nat.zero_le _
    | some ev =>
      obtain ⟨hsrc, header, hp⟩ := hev ev he
      rw [Option.toList_some, List.countP_singleton, income]
      split
      · rename_i hgreets
        rw [greets, Bool.and_eq_true, decide_eq_true_eq, decide_eq_true_eq, hsrc] at hgreets
        rw [if_pos hgreets.1, Nat.mul_one]
        exact hf.greeted _ _ _ hp hgreets.2
      · exact Nat.zero_le _

theorem countP_refuses_eq_zero {a : SocketAddr} {tasks : List HostTask}
    (h : ∀ reason, .act (.send a (.deny reason)) ∉ tasks) : tasks.countP (refuses a) = 0 := by
  refine List.countP_eq_zero.mpr fun task ht hd => ?_
  unfold refuses at hd
  split at hd
  · rw [of_decide_eq_true hd] at ht
    exact h _ ht
  · cases hd

/-- A stranger is denied at most once for an event of his that is a HELLO. -/
theorem Stranger.dispatched {cfg : HostConfig} {a : SocketAddr} {h : Host} (hi : Stranger cfg a h)
    {ev : CtrlEvent} (hev : ev ∈ h.events) (nowMs : Nat) :
    ((dispatch h.hs h.shared.sessionId ev nowMs).1.map HostTask.act).countP (refuses a) ≤
      [ev].countP (greets a) := by
  by_cases hsrc : ev.src = a
  · rcases dispatch_outside (hsrc ▸ hi.slot) (hi.events ev hev hsrc)
        h.shared.sessionId nowMs with hd | ⟨reason, hd⟩
    · rw [hd]
      exact Nat.zero_le _
    · have hmem : .send ev.src (.deny reason) ∈ (dispatch h.hs h.shared.sessionId ev nowMs).1 := by
        rw [hd]
        exact List.mem_singleton_self _
      have hgreets : greets a ev = true := by
        rw [greets, (dispatch_deny hmem).2.1, decide_eq_true hsrc]
        rfl
      rw [hd, List.countP_singleton, if_pos hgreets]
      exact List.countP_le_length
  · rw [countP_refuses_eq_zero fun reason hm => ?_]
    · exact Nat.zero_le _
    · obtain ⟨action, hmem, hact⟩ := List.mem_map.mp hm
      obtain rfl := HostTask.act.inj hact
      exact hsrc (dispatch_deny hmem).1.symm

theorem Stranger.resolve {cfg : HostConfig} {a : SocketAddr} {h : Host} (hi : Stranger cfg a h)
    {item : TxItem} (hm : item ∈ h.txRing) : h.tx.resolve item ≠ some a := by
  unfold TxState.resolve
  rw [if_neg (hi.dest item hm)]
  split
  · exact hi.table _
  · exact Option.some_ne_none a ∘ Eq.symm

/-- Whatever a step sends to a stranger was owed to him, and no step makes the host owe him more. -/
theorem Move.pays {cfg : HostConfig} {a : SocketAddr} {size worth : Bytes → Nat} {price : Nat}
    {h h' : Host} {l : HostLabel} {out : Option Outgoing} (hf : Fair size worth price)
    (hm : Move h l h' out) (hi : Stranger cfg a h) :
    cost size a out + price * h'.owes a ≤ price * h.owes a := by
  -- Nothing is sent.
  have silent : h'.owes a ≤ h.owes a → cost size a none + price * h'.owes a ≤ price * h.owes a := by
    intro hle
    rw [cost, Nat.zero_add]
    exact Nat.mul_le_mul_left price hle
  have nothing : ∀ {tasks : List HostTask}, tasks = [] → tasks.countP (refuses a) = 0 := by
    rintro _ rfl
    rfl
  cases hm with
  | @sends nowUs task tasks dst control ht hp =>
    by_cases hdst : dst = a
    · obtain rfl := hdst
      obtain ⟨reason, rfl⟩ : ∃ reason, control = .deny reason := by
        have hv := hi.consistent.inv.tasks task (ht ▸ List.mem_cons_self)
        exact (hv.packet hp).2.resolve_right fun ⟨i, haddr⟩ => hi.slot i haddr
      obtain rfl := HostTask.of_packet_deny hp
      have hdeny : refuses dst (.act (.send dst (.deny reason))) = true := decide_eq_true rfl
      have hpaid := hf.denied h.seq.val reason h.shared.sessionId hostSenderId
      rw [owes, owes, ht, List.countP_cons_of_pos hdeny, cost, if_pos rfl]
      dsimp only
      rw [← Nat.add_assoc, Nat.mul_succ]
      omega
    · rw [cost, if_neg hdst, Nat.zero_add]
      refine Nat.mul_le_mul_left price (Nat.add_le_add_left ?_ _)
      rw [ht]
      exact (List.sublist_cons_self _ _).countP_le
  | @executes nowUs task tasks h' ht hp hs he =>
    refine silent (Nat.add_le_add ?_ ?_)
    · rw [hs.events]
    · rw [hs.tasks, ht]
      exact (List.sublist_cons_self _ _).countP_le
  | feeds ht hphase ht' hs hc =>
    refine silent (Nat.add_le_add ?_ ?_)
    · rw [hc.events]
    · rw [nothing ht']
      exact Nat.zero_le _
  | ticks ht hphase =>
    refine silent (Nat.add_le_add_left ?_ _)
    rw [countP_refuses_eq_zero fun reason hm => ?_]
    · exact Nat.zero_le _
    · obtain ⟨action, hmem, hact⟩ := List.mem_map.mp hm
      obtain rfl := HostTask.act.inj hact
      exact deny_not_mem_tick _ _ _ _ hmem
  | @takes nowMs ev events ht hev =>
    refine silent ?_
    have hd := hi.dispatched (hev ▸ List.mem_cons_self) nowMs
    rw [owes, owes, hev, ht, List.countP_cons, List.countP_nil, Nat.add_zero]
    rw [List.countP_singleton] at hd
    exact Nat.add_le_add_left hd _
  | polls ht hc ht' =>
    refine silent (Nat.add_le_add ?_ ?_)
    · rw [hc.events]
    · rw [countP_refuses_eq_zero fun reason hm => ?_]
      · exact Nat.zero_le _
      · obtain ⟨_, _, h | h | h⟩ := ht' _ hm <;> cases h
  | @transmits item ring dst h' hring hdst hc ht' =>
    have hne : dst ≠ a := fun hd => hi.resolve (hring ▸ List.mem_cons_self) (hd ▸ hdst)
    rw [cost, if_neg hne, Nat.zero_add, owes, owes, hc.events, ht']
  | idles hl hc ht' =>
    refine silent ?_
    rw [owes, owes, hc.events, ht']

theorem Stranger.pays {cfg : HostConfig} {a : SocketAddr} {size worth : Bytes → Nat} {price : Nat}
    {h h' : Host} {e : HostEvent} (hf : Fair size worth price) (hi : Stranger cfg a h)
    (hn : h.next e = some h') :
    cost size a (h.emits e) + price * h'.owes a ≤ price * h.owes a + income worth a e := by
  cases e with
  | step l =>
    obtain ⟨⟨h2, out⟩, hs, rfl⟩ := Option.map_eq_some_iff.mp hn
    rw [emits, hs]
    exact (move_of_step hs).pays hf hi
  | recv src bytes nowUs t3Us =>
    obtain ⟨⟨h2, out⟩, hr, rfl⟩ := Option.map_eq_some_iff.mp hn
    rw [emits, hr]
    unfold receive at hr
    split at hr
    · obtain ⟨rfl, rfl⟩ := Prod.mk.inj (Option.some.inj hr)
      have hpays := routeHost_pays (a := a) hf
        { frameSamples := h.params.frameSamples, sampleRate := h.params.sampleRate } h.rx h.shared src
        bytes nowUs t3Us
      rw [Option.bind_some, owes, owes, List.countP_append, Nat.add_right_comm, Nat.mul_add,
        Nat.add_left_comm]
      exact Nat.add_le_add_left hpays _
    · cases hr
  | read slot op =>
    obtain rfl := Option.some.inj hn
    rw [show h.emits (.read slot op) = none from rfl, cost, Nat.zero_add]
    exact Nat.le_add_right _ _
  | mix player setting =>
    obtain rfl := Option.some.inj hn
    rw [show h.emits (.mix player setting) = none from rfl, cost, Nat.zero_add]
    exact Nat.le_add_right _ _

/-! ## Runs -/

theorem sum_sent (size : Bytes → Nat) (a : SocketAddr) (g : Traffic) (h : Host) (e : HostEvent)
    (h' : Host) : ((g.observe a h e h').sent.map size).sum =
      (g.sent.map size).sum + cost size a (h.emits e) := by
  show ((g.sent ++ _).map size).sum = _
  rw [List.map_append, List.sum_append]
  congr 1
  cases h.emits e with
  | none => rfl
  | some o =>
    rw [Option.filter_some, cost]
    by_cases ho : o.dst = a
    · rw [if_pos (decide_eq_true ho), if_pos ho]
      rfl
    · rw [if_neg (by rw [decide_eq_true_iff]; exact ho), if_neg ho]
      rfl

theorem sum_received (worth : Bytes → Nat) (a : SocketAddr) (g : Traffic) (h : Host) (e : HostEvent)
    (h' : Host) : ((g.observe a h e h').received.map worth).sum =
      (g.received.map worth).sum + income worth a e := by
  cases e with
  | recv src bytes nowUs t3Us =>
    show ((if src = a then g.received ++ [bytes] else g.received).map worth).sum = _
    rw [income]
    split
    · rw [List.map_append, List.sum_append]
      rfl
    · rfl
  | _ => rfl

section Runs

variable {cfg : HostConfig} {a : SocketAddr} {es : List HostEvent} {w : Host × Traffic}

/-- What a stranger was sent, and what he will be sent, he has paid for. -/
theorem Exchanges.paid {size worth : Bytes → Nat} {price : Nat} (hf : Fair size worth price)
    (hr : Exchanges cfg a (fun _ e => e.Uninvited cfg a) es w) :
    (w.2.sent.map size).sum + price * w.1.owes a ≤ (w.2.received.map worth).sum := by
  have hboth := hr.invariant (p := fun w => Stranger cfg a w.1 ∧
      (w.2.sent.map size).sum + price * w.1.owes a ≤ (w.2.received.map worth).sum)
    ⟨stranger_new cfg a, le_rfl⟩ fun es t e u _ hp hc hs => by
      obtain ⟨hs, hg⟩ := watch_eq_some.mp hs
      refine ⟨hp.1.next hc hs, ?_⟩
      rw [hg, sum_sent, sum_received]
      have hstep := hp.1.pays hf hs
      have hbefore := hp.2
      omega
  exact hboth.2

/-- Nobody can make the host send much to somebody who never asks to join with the room code: at most one
datagram for each that claims to come from there, and at most twice the bytes. -/
theorem reflection_bounded (hr : Exchanges cfg a (fun _ e => e.Uninvited cfg a) es w) :
    w.2.sent.length ≤ w.2.received.length ∧ volume w.2.sent ≤ 2 * volume w.2.received := by
  constructor
  · have hpaid := hr.paid fair_count
    rw [List.map_const', List.map_const', List.sum_replicate_nat, List.sum_replicate_nat, Nat.mul_one,
      Nat.mul_one] at hpaid
    exact (Nat.le_add_right _ _).trans hpaid
  · have hpaid := hr.paid fair_volume
    rw [List.sum_map_mul_left] at hpaid
    exact (Nat.le_add_right _ _).trans hpaid

end Runs

/-- The test for `Uninvited`. -/
def isUninvited (cfg : HostConfig) (a : SocketAddr) : HostEvent → Bool
  | .recv src bytes _ _ => src ≠ a || match parseDatagram (bytes.take maxDatagram) with
    | some (.ok (_, .control (.hello protoVersion roomCode _ _ _))) =>
      protoVersion ≠ protocolVersion || roomCode ≠ cfg.roomCode
    | _ => true
  | _ => true

theorem uninvited_of_test {cfg : HostConfig} {a : SocketAddr} {e : HostEvent}
    (h : isUninvited cfg a e = true) : e.Uninvited cfg a := by
  cases e with
  | recv src bytes nowUs t3Us =>
    rintro hsrc header name codecMask frameMask hp
    rw [isUninvited, hp, decide_eq_false (not_not.mpr hsrc), Bool.false_or, Bool.or_eq_true,
      decide_eq_true_eq, decide_eq_true_eq] at h
    rcases h with hne | hne <;> exact hne rfl
  | _ => trivial

/-- Somebody tries a wrong room code and sends a PING. -/
theorem reflection_bounded_guess : ∃ es w, Exchanges Scenario.cfg.host Scenario.clientAddr
    (fun _ e => e.Uninvited Scenario.cfg.host Scenario.clientAddr) es w ∧
    w.2.sent.map List.length = [9, 32] ∧
    w.2.sent.length ≤ w.2.received.length ∧ volume w.2.sent ≤ 2 * volume w.2.received := by
  obtain ⟨w, hr, hw⟩ := Exchanges.of_test Scenario.cfg.host Scenario.clientAddr
    (Scenario.strangerIn ++ Scenario.recv Scenario.clientAddr
        (Scenario.strangerHello #v[65, 65, 65, 65, 65, 65]) 20000 ++
      Scenario.handles 1 20 ++ Scenario.recv Scenario.clientAddr (stampedDatagram 1 (.ping 5) 0 0) 21000)
    (fun _ e => isUninvited Scenario.cfg.host Scenario.clientAddr e)
    (fun w => decide (w.2.sent.map List.length = [9, 32]))
    (fun _ _ h => uninvited_of_test h) (by decide +kernel)
  exact ⟨_, w, hr, of_decide_eq_true hw, reflection_bounded hr⟩

end Host

end OnlineJam
