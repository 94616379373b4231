import OnlineJam.Core.Scenario
import OnlineJam.Proofs.HeardProofs
import OnlineJam.Proofs.IdentityProofs
import OnlineJam.Proofs.UnjoinedProofs

/-!
# Acknowledgement of a join

When the host takes the client's slot for acknowledged, and what that says about the client. Any control
packet from the slot's address counts as an acknowledgement, and so does the time of the last datagram that
was counted for the slot. While the client has not been Joined, that is sound as long as neither its PONGs
nor what is left over from an earlier join reach the host.
-/

namespace OnlineJam

open OnlineJam.Lib
open HostHandshake

theorem parses_iff_read {bytes : Bytes} {header : Header} {payload : Payload} :
    Parses bytes header payload ↔ readDatagram bytes = some (header, payload) := by
  unfold Parses readDatagram
  constructor
  · intro h
    rw [h]
  · intro h
    split at h
    · rename_i hp
      rw [hp, Option.some.inj h]
    · cases h

namespace Host

/-! ## `ClientJoined` -/

/-- `ClientJoined` for slot `k` is still to be executed. -/
def Opening (h : Host) (k : Fin maxClients) : Prop :=
  ∃ name, .act (.clientJoined (senderId k) name) ∈ h.tasks

theorem joins_iff {h : Host} {l : HostLabel} {k : Fin maxClients} : h.joins l k = true ↔
    ∃ nowUs name tasks, l = .control nowUs ∧ h.tasks = .act (.clientJoined (senderId k) name) :: tasks := by
  constructor
  · intro hj
    unfold joins at hj
    split at hj
    · rename_i nowUs sender name tasks htasks
      rw [slotOfSender_eq_some.mp (of_decide_eq_true hj)] at htasks
      exact ⟨nowUs, name, tasks, rfl, htasks⟩
    · cases hj
  · rintro ⟨nowUs, name, tasks, rfl, htasks⟩
    unfold joins
    rw [htasks]
    exact decide_eq_true (slotOfSender_senderId k)

theorem not_opening {h : Host} (ht : h.tasks = []) (k : Fin maxClients) : ¬ h.Opening k := by
  rintro ⟨name, hmem⟩
  rw [ht] at hmem
  cases hmem

/-- Who is to be announced is still to acknowledge. -/
theorem Inv.opening_pending {h : Host} (hi : h.Inv) {k : Fin maxClients} (ho : h.Opening k) :
    ∀ e, h.hs.slots k = some e → e.state ≠ .active := by
  obtain ⟨name, hmem⟩ := ho
  obtain ⟨i, e, hid, he, hstate⟩ := hi.tasks _ hmem
  intro e' he'
  rw [senderId_inj hid, he] at he'
  exact Option.some.inj he' ▸ hstate

theorem joins_opening {h : Host} {l : HostLabel} {k : Fin maxClients} (hj : h.joins l k = true) :
    h.Opening k := by
  obtain ⟨_, name, _, _, htasks⟩ := joins_iff.mp hj
  exact ⟨name, htasks ▸ List.mem_cons_self⟩

/-- A slot that is opened stays so until `ClientJoined` is executed. -/
theorem Move.opening {h h' : Host} {l : HostLabel} {out : Option Outgoing} (hm : Move h l h' out)
    {k : Fin maxClients} (ho : h.Opening k) (hj : h.joins l k = false) : h'.Opening k := by
  obtain ⟨name, hmem⟩ := ho
  -- The first of the tasks has been executed.
  have rest : ∀ {nowUs task tasks}, l = .control nowUs → h.tasks = task :: tasks → h'.tasks = tasks →
      h'.Opening k := by
    intro nowUs task tasks hl ht ht'
    rw [ht] at hmem
    rcases List.mem_cons.mp hmem with he | hmem
    · rw [joins_iff.mpr ⟨nowUs, name, tasks, hl, he ▸ ht⟩] at hj
      cases hj
    · exact ⟨name, ht' ▸ hmem⟩
  have idle : h.tasks = [] → h'.Opening k := fun ht => absurd ⟨name, hmem⟩ (not_opening ht k)
  cases hm with
  | sends ht hp => exact rest rfl ht rfl
  | executes ht hp hs he => exact rest rfl ht hs.tasks
  | feeds ht hphase ht' hs hc => exact idle ht
  | ticks ht hphase => exact idle ht
  | takes ht hev => exact idle ht
  | polls ht hc ht' => exact idle ht
  | transmits hring hdst hc ht' => exact ⟨name, ht' ▸ hmem⟩
  | idles hl hc ht' => exact ⟨name, ht' ▸ hmem⟩

/-- Who gets a slot is announced with `ClientJoined`. -/
theorem dispatch_opens {hs : HostHandshake} {sessionId : UInt16} {ev : CtrlEvent} {nowMs : Nat}
    {k : Fin maxClients} {a : SocketAddr} (hk : (dispatch hs sessionId ev nowMs).2.addrAt k = some a) :
    hs.addrAt k = some a ∨ ∃ name, .clientJoined (senderId k) name ∈ (dispatch hs sessionId ev nowMs).1 := by
  obtain ⟨heard, hkeep, _, hdisp⟩ := dispatch_heard hs sessionId ev nowMs
  rw [← hkeep.addrAt k]
  generalize dispatch hs sessionId ev nowMs = r at hdisp hk ⊢
  cases hdisp with
  | hello hcontrol =>
    have hans := onHello_answers heard ev.src ev.control nowMs
    generalize heard.onHello ev.src ev.control nowMs = r at hans hk ⊢
    cases hans with
    | ignores hne => exact .inl hk
    | refuses hr hno => exact .inl hk
    | full hnew hfull => exact .inl hk
    | again hello_eq haddr =>
      rw [(keeps_setSlot haddr).addrAt] at hk
      exact .inl hk
    | @joins slot name _ _ hello_eq hnew hfree =>
      have hk : (heard.setSlot slot (some (newcomer ev.src name nowMs))).addrAt k = some a := hk
      rw [addrAt_setSlot] at hk
      split at hk
      · rename_i hks
        exact .inr ⟨name, by simp [hks]⟩
      · exact .inl hk
  | ack h =>
    rw [(keeps_onAck heard _ _ _).addrAt] at hk
    exact .inl hk
  | bye h hsession =>
    have hmoves : Moves (fun _ => False) heard (heard.onBye ev.src).2 := moves_removeWhere heard _ _
    exact .inl ((hmoves.addrAt_cases hk).resolve_right id)
  | other hhello hbye => exact .inl hk

theorem Move.opens {h h' : Host} {l : HostLabel} {out : Option Outgoing} (hm : Move h l h' out)
    {k : Fin maxClients} {a : SocketAddr} (hk : h'.hs.addrAt k = some a) :
    h.hs.addrAt k = some a ∨ h'.Opening k := by
  have stays : Moves (fun _ => False) h.hs h'.hs → h.hs.addrAt k = some a := fun hmoves =>
    (hmoves.addrAt_cases hk).resolve_right id
  have same : h'.hs = h.hs → h.hs.addrAt k = some a := fun he => he ▸ hk
  cases hm with
  | sends ht hp => exact .inl (stays (keeps_afterSend _ _ _ _).moves)
  | executes ht hp hs he => exact .inl (same hs.hs)
  | feeds ht hphase ht' hs hc =>
    rw [hs] at stays
    exact .inl (stays (keeps_feed _ _ _ _).moves)
  | ticks ht hphase => exact .inl (stays (moves_tick _ _))
  | takes ht hev =>
    rcases dispatch_opens hk with hold | ⟨name, hmem⟩
    · exact .inl hold
    · exact .inr ⟨name, List.mem_map_of_mem hmem⟩
  | polls ht hc ht' => exact .inl (same hc.hs)
  | transmits hring hdst hc ht' => exact .inl (same hc.hs)
  | idles hl hc ht' => exact .inl (same hc.hs)

/-- `ClientJoined` clears the time of the slot. -/
theorem Move.joins_lastRxUs {h h' : Host} {l : HostLabel} {out : Option Outgoing} (hm : Move h l h' out)
    {k : Fin maxClients} (hj : h.joins l k = true) : (h'.shared.clients k).lastRxUs = 0 ∧ out = none ∧
      h'.hs = h.hs ∧ h'.events = h.events := by
  obtain ⟨nowUs, name, tasks, rfl, htasks⟩ := joins_iff.mp hj
  have idle : h.tasks ≠ [] := by
    rw [htasks]
    exact List.cons_ne_nil _ _
  cases hm with
  | @sends _ task _ _ _ ht hp =>
    rw [(List.cons.inj (ht.symm.trans htasks)).1] at hp
    cases hp
  | @executes _ task tasks' _ ht hp hs he =>
    refine ⟨?_, rfl, hs.hs, hs.events⟩
    obtain ⟨rfl, rfl⟩ := List.cons.inj (ht.symm.trans htasks)
    rw [he, perform, slotOfSender_senderId]
    show (Function.update h.shared.clients k _ k).lastRxUs = 0
    rw [Function.update_self]
  | feeds ht hphase ht' hs hc => exact absurd ht idle
  | ticks ht hphase => exact absurd ht idle
  | polls ht hc ht' => exact absurd ht idle
  | idles hl hc ht' => exact absurd rfl (hl nowUs)

/-- The host's own steps leave the time of a slot alone but for `ClientJoined`. -/
theorem Move.lastRxUs {h h' : Host} {l : HostLabel} {out : Option Outgoing} (hm : Move h l h' out)
    {k : Fin maxClients} (hj : h.joins l k = false) :
    (h'.shared.clients k).lastRxUs = (h.shared.clients k).lastRxUs := by
  cases hm with
  | sends ht hp => rfl
  | @executes nowUs task tasks _ ht hp hs he =>
    rcases perform_lastRxUs { h with tasks := tasks } nowUs task k with hsame | ⟨name, rfl⟩
    · rw [he, hsame]
    · rw [joins_iff.mpr ⟨nowUs, name, tasks, rfl, ht⟩] at hj
      cases hj
  | feeds ht hphase ht' hs hc => rw [hc.shared]
  | ticks ht hphase => rfl
  | @takes nowMs ev events ht hev => exact measure_lastRxUs h ev k
  | polls ht hc ht' => rw [hc.shared]
  | transmits hring hdst hc ht' => rw [hc.shared]
  | idles hl hc ht' => rw [hc.shared]

/-- A PING is answered at once and changes nothing else. -/
theorem receive_ping {h h' : Host} {src : SocketAddr} {bytes : Bytes} {nowUs t3Us : Nat}
    {out : Option Outgoing} (hr : h.receive src bytes nowUs t3Us = some (h', out)) {header : Header}
    {t1Us : UInt64} (hp : Parses bytes header (.control (.ping t1Us))) :
    h'.shared = h.shared ∧ h'.events = h.events := by
  unfold receive at hr
  split at hr
  · obtain ⟨rfl, -⟩ := Prod.mk.inj (Option.some.inj hr)
    have hp : parseDatagram (bytes.take maxDatagram) = some (.ok (header, .control (.ping t1Us))) := hp
    unfold routeHost
    rw [hp]
    exact ⟨rfl, List.append_nil _⟩
  · cases hr

end Host

theorem ClientHandshake.not_joinedAs {cs : ClientHandshake} (h : cs.isJoined = false) (id : UInt16) :
    cs.isJoinedAs id = false := by
  unfold isJoined at h
  unfold isJoinedAs
  cases hphase : cs.phase with
  | joined id' sessionId params =>
    rw [hphase] at h
    cases h
  | _ => rfl

/-- A datagram that is not counted for a slot does not have its id. -/
theorem Host.not_counted {h : Host} {src : SocketAddr} {bytes : Bytes} {k : Fin maxClients}
    (hc : h.counts src bytes k = false) {header : Header} {payload : Payload}
    (hp : Parses bytes header payload) (haddr : h.rx.clientAddrs k = some src) :
    header.senderId ≠ senderId k := by
  intro hid
  rw [counts, parses_iff_read.mp hp] at hc
  simp [haddr, hid] at hc

namespace Session

/-! ## Clients that have not been Joined -/

theorem overhears_iff {cfg : SessionConfig} {header : Header} {control : Control} :
    cfg.overhears header control = true ↔ control.packetType = .hello ∨
      control = .bye ∧ header.sessionId = cfg.host.sessionId := by
  unfold SessionConfig.overhears
  cases control <;> simp [Control.packetType]

/-- What the host can know of a client that has not been Joined since `ClientJoined` was executed for slot
`k`, when `opened` datagrams had been sent. -/
structure Unjoined (cfg : SessionConfig) (s : Session) (opened : Nat) (k : Fin maxClients) : Prop where
  pending : ∀ e, s.host.hs.slots k = some e → e.state ≠ .active
  machine : s.client.cs.isJoined = false
  sent : ∀ i e header payload, s.net[i]? = some e → e.src = cfg.clientAddr → opened ≤ i →
    Parses e.bytes header payload → s.client.MayHaveSent payload
  events : ∀ ev ∈ s.host.events, ev.src = cfg.clientAddr → cfg.overhears ev.header ev.control = true
  unfed : (s.host.shared.clients k).lastRxUs = 0

section Runs

variable {cfg : SessionConfig} {c : Watched → SessionLabel → Prop} {ls : List SessionLabel}
  {w : Watched} {s : Session} {g : SessionLog} {opened : Nat} {k : Fin maxClients}

/-- A HELLO of the client is admitted by a host that has a slot for it. -/
theorem Runs.admits (h : Runs cfg c ls w) {k : Fin maxClients}
    (hk : w.1.host.hs.addrAt k = some cfg.clientAddr) {ev : CtrlEvent} (hev : ev ∈ w.1.host.events)
    (hsrc : ev.src = cfg.clientAddr) (hhello : ev.control.packetType = .hello) :
    w.1.host.hs.Admits ev.control := by
  have hcode : w.1.host.hs.roomCode = cfg.host.roomCode := h.host_inv.2.2
  rcases h.hostEvents ev hev hsrc with hown | hne
  · rw [h.roomCode k hk, ← hcode] at hown
    exact ⟨fitName cfg.client.name, 0b111, 0b011, hown⟩
  · exact absurd hhello hne

theorem awaits_of_pending (hk : s.host.hs.addrAt k = some cfg.clientAddr)
    (hp : ∀ e, s.host.hs.slots k = some e → e.state ≠ .active) :
    s.host.awaits cfg.clientAddr k = true := by
  obtain ⟨e, he, haddr⟩ := addrAt_eq_some.mp hk
  rw [Host.awaits, he]
  simp [haddr, hp e he]

/-- `ClientJoined` finds a slot that is to be acknowledged, and clears its time. -/
theorem Unjoined.of_joins (hrun : Runs cfg c ls (s, g)) {l : HostLabel} {r : Host × Option Outgoing}
    (hs : s.host.step l = some r) (hj : s.host.joins l k = true) (hmachine : s.client.cs.isJoined = false)
    (hevs : ∀ ev ∈ s.host.events, ev.src = cfg.clientAddr → cfg.overhears ev.header ev.control = true) :
    Unjoined cfg (s.hostMoved cfg r) s.net.length k := by
  obtain ⟨h', out⟩ := r
  obtain ⟨hunfed, rfl, hhs, hevents⟩ := (Host.move_of_step hs).joins_lastRxUs hj
  have hev : Event cfg s (.host l) (s.hostMoved cfg (h', none)) := .host hs
  refine ⟨?_, hmachine, ?_, fun ev hmem => hevs ev (hevents ▸ hmem), hunfed⟩
  · intro e he
    exact hrun.host_inv.1.opening_pending (Host.joins_opening hj) e (hhs ▸ he)
  · -- Nothing has been sent since.
    intro i e header payload hi _ hle _
    rcases hev.net_cases (g := g) hi with ⟨hold, _⟩ | ⟨hnew, _⟩
    · exact absurd (List.getElem?_eq_some_iff.mp hold).1 (Nat.not_lt.mpr hle)
    · obtain ⟨o, he, _⟩ := of_post hnew
      cases he

/-- What the host sends does not come from the client. -/
theorem Unjoined.sent_host (hu : Unjoined cfg s opened k) {l : SessionLabel} {r : Host × Option Outgoing}
    (hev : Event cfg s l (s.hostMoved cfg r)) {i : Nat} {e : Envelope} {header : Header} {payload : Payload}
    (hi : (s.hostMoved cfg r).net[i]? = some e) (hsrc : e.src = cfg.clientAddr) (hle : opened ≤ i)
    (hp : Parses e.bytes header payload) : s.client.MayHaveSent payload := by
  rcases hev.net_cases (g := SessionLog.new) hi with ⟨hold, _⟩ | ⟨hnew, _⟩
  · exact hu.sent i e header payload hold hsrc hle hp
  · obtain ⟨o, _, rfl⟩ := of_post hnew
    exact absurd hsrc cfg.distinct

/-- What the client sends must be what it may have sent. -/
theorem Unjoined.sent_client (hu : Unjoined cfg s opened k) {l : SessionLabel}
    {r : Client × Option Outgoing} (hev : Event cfg s l (s.clientMoved cfg r))
    (hmono : s.client.welcomeInHand = true → r.1.welcomeInHand = true)
    (hout : ∀ o header payload, r.2 = some o → Parses o.bytes header payload → r.1.MayHaveSent payload)
    {i : Nat} {e : Envelope} {header : Header} {payload : Payload}
    (hi : (s.clientMoved cfg r).net[i]? = some e) (hsrc : e.src = cfg.clientAddr) (hle : opened ≤ i)
    (hp : Parses e.bytes header payload) : r.1.MayHaveSent payload := by
  rcases hev.net_cases (g := SessionLog.new) hi with ⟨hold, _⟩ | ⟨hnew, _⟩
  · exact (hu.sent i e header payload hold hsrc hle hp).mono hmono
  · obtain ⟨o, ho, rfl⟩ := of_post hnew
    exact hout o header payload ho hp

/-- A slot that the client keeps is not Active after a step of the host either. -/
theorem Unjoined.pending_host (hu : Unjoined cfg s opened k) (hrun : Runs cfg c ls (s, g)) {l : HostLabel}
    {h' : Host} {out : Option Outgoing} (hm : Host.Move s.host l h' out)
    (hk : s.host.hs.addrAt k = some cfg.clientAddr) (hk' : h'.hs.addrAt k = some cfg.clientAddr)
    {e' : HsSlot} (he' : h'.hs.slots k = some e') : e'.state ≠ .active := by
  intro hactive
  have before : (∃ e, s.host.hs.slots k = some e ∧ e.addr = e'.addr ∧ e.state = .active) → False :=
    fun ⟨e, he, _, hold⟩ => hu.pending e he hold
  have same : h'.hs = s.host.hs → False := fun hhs => hu.pending e' (hhs ▸ he') hactive
  cases hm with
  | sends ht hp =>
    refine before ?_
    have he' : (s.host.hs.afterSend _ _ s.host.seq.val).slots k = some e' := he'
    unfold HostHandshake.afterSend at he'
    split at he'
    · exact calms_welcomeSent _ _ _ k e' he' hactive
    · exact ⟨e', he', rfl, hactive⟩
  | executes ht hp hsilent => exact same hsilent.hs
  | @feeds _ slot _ ht hphase ht' hhs hc =>
    rw [hhs] at he'
    split at he'
    · rename_i hpos
      rcases markHeard_active he' hactive with ⟨rfl, _⟩ | hold
      · rw [hu.unfed] at hpos
        exact absurd hpos (Nat.lt_irrefl 0)
      · exact before hold
    · exact hu.pending e' he' hactive
  | ticks ht hphase => exact before (calms_tick _ _ k e' he' hactive)
  | @takes nowMs ev events ht hev =>
    rcases Host.dispatch_active hrun.host_inv.1.distinct he' hactive with hold | ⟨hsrc, hadm, hbye⟩
    · exact before hold
    · -- A HELLO of the client is admitted, and a BYE takes its slot away.
      have hmem : ev ∈ s.host.events := hev ▸ List.mem_cons_self
      have hclient : ev.src = cfg.clientAddr := by
        rw [← hsrc]
        exact Option.some.inj ((addrAt_of_slots he').symm.trans hk')
      rcases overhears_iff.mp (hu.events ev hmem hclient) with hhello | ⟨hcontrol, hsession⟩
      · exact hadm (hrun.admits hk hmem hclient hhello)
      · exact hbye hcontrol (hsession.trans hrun.host_inv.2.1.symm)
  | polls ht hc ht' => exact same hc.hs
  | transmits hring hdst hc ht' => exact same hc.hs
  | idles hl hc ht' => exact same hc.hs

/-- The host's own steps learn nothing of the client. -/
theorem Unjoined.host (hu : Unjoined cfg s opened k) (hrun : Runs cfg c ls (s, g)) {l : HostLabel}
    {r : Host × Option Outgoing} (hs : s.host.step l = some r) (hj : s.host.joins l k = false)
    (hk : s.host.hs.addrAt k = some cfg.clientAddr) (hk' : r.1.hs.addrAt k = some cfg.clientAddr) :
    Unjoined cfg (s.hostMoved cfg r) opened k := by
  obtain ⟨h', out⟩ := r
  have hm := Host.move_of_step hs
  refine ⟨?_, hu.machine, ?_, ?_, (hm.lastRxUs hj).trans hu.unfed⟩
  · intro e he
    exact hu.pending_host hrun hm hk hk' he
  · intro i e header payload
    exact hu.sent_host (.host hs)
  · intro ev hmem
    exact hu.events ev (hm.events ev hmem)

/-- So does the arrival of a datagram that is a PING, or that the control loop does not take for an
acknowledgement and the receive thread does not count for the slot. -/
theorem Unjoined.arrives (hu : Unjoined cfg s opened k) {l : SessionLabel} {src : SocketAddr} {bytes : Bytes}
    {nowUs t3Us : Nat} {r : Host × Option Outgoing} (hev : Event cfg s l (s.hostMoved cfg r))
    (hr : s.host.receive src bytes nowUs t3Us = some r)
    (hquiet : ∀ header payload, Parses bytes header payload → (∃ t1Us, payload = .control (.ping t1Us)) ∨
      (src = cfg.clientAddr → ∀ control, payload = .control control → cfg.overhears header control = true) ∧
        s.host.counts src bytes k = false) :
    Unjoined cfg (s.hostMoved cfg r) opened k := by
  obtain ⟨h', out⟩ := r
  have hrec := Host.receive_spec hr
  refine ⟨fun e he => hu.pending e (hrec.hs ▸ he), hu.machine, ?_, ?_, ?_⟩
  · intro i e header payload
    exact hu.sent_host hev
  · intro ev (hmem : ev ∈ h'.events) hsrc
    rcases hrec.event with hsame | ⟨header, control, rxUs, hp, hnew⟩
    · exact hu.events ev (hsame ▸ hmem) hsrc
    · rcases hquiet header _ hp with ⟨t1Us, hping⟩ | ⟨hover, _⟩
      · rw [hping] at hp
        exact hu.events ev ((Host.receive_ping hr hp).2 ▸ hmem) hsrc
      · rcases List.mem_append.mp (hnew ▸ hmem) with hold | hlast
        · exact hu.events ev hold hsrc
        · obtain rfl := List.mem_singleton.mp hlast
          exact hover hsrc control rfl
  · show (h'.shared.clients k).lastRxUs = 0
    rcases Host.receive_lastRxUs hr k with hsame | ⟨_, haddr, header, payload, hp, hid⟩
    · rw [hsame]
      exact hu.unfed
    · rcases hquiet header payload hp with ⟨t1Us, rfl⟩ | ⟨_, hno⟩
      · rw [(Host.receive_ping hr hp).1]
        exact hu.unfed
      · exact absurd hid (Host.not_counted hno hp haddr)

/-- A datagram of the client that belongs to the join is a PING, or the host does not take it for an
acknowledgement. -/
theorem Unjoined.belongs {w : OpenedSession} (hu : Unjoined cfg w.1.1 (w.2 k) k) {i : Nat} {e : Envelope}
    (hi : w.1.1.net[i]? = some e) (hsrc : e.src = cfg.clientAddr) {header : Header} {payload : Payload}
    (hp : Parses e.bytes header payload) {counted : Bool}
    (hb : OpenedSession.Belongs cfg w k i counted (header, payload)) :
    (∃ t1Us, payload = .control (.ping t1Us)) ∨
      (∀ control, payload = .control control → cfg.overhears header control = true) ∧ counted = false := by
  have may : w.2 k ≤ i → w.1.1.client.MayHaveSent payload := fun hle =>
    hu.sent i e header payload hi hsrc hle hp
  cases payload with
  | audio audio =>
    refine .inr ⟨fun control he => (by cases he), ?_⟩
    rcases hb with hle | hno
    · obtain ⟨_, he, _⟩ := may hle
      cases he
    · exact hno
  | control control =>
    -- What else a client may have sent that is not Joined does not belong here.
    have other : w.2 k ≤ i → control.packetType ≠ .hello → control.packetType ≠ .pong →
        (control.packetType = .ack → w.1.1.client.welcomeInHand = false) → False := by
      intro hle hhello hpong hack
      obtain ⟨control', he, htype⟩ := may hle
      obtain rfl := Payload.control.inj he
      rcases htype with htype | htype | ⟨htype, hin⟩
      · exact hhello htype
      · exact hpong htype
      · rw [hack htype] at hin
        cases hin
    cases control with
    | hello => exact .inr ⟨fun _ he => Payload.control.inj he ▸ rfl, hb⟩
    | ping t1Us => exact .inl ⟨t1Us, rfl⟩
    | pong => exact hb.elim
    | ack => exact (other hb.1 (by simp [Control.packetType]) (by simp [Control.packetType])
        fun _ => hb.2).elim
    | bye =>
      rcases hb with hle | ⟨hsession, hno⟩
      · exact (other hle (by simp [Control.packetType]) (by simp [Control.packetType])
          (by simp [Control.packetType])).elim
      · refine .inr ⟨fun control he => ?_, hno⟩
        obtain rfl := Payload.control.inj he
        exact overhears_iff.mpr (.inr ⟨rfl, hsession⟩)
    | _ => exact (other hb (by simp [Control.packetType]) (by simp [Control.packetType])
        (by simp [Control.packetType])).elim

/-- A step of the client by which it is not Joined with the slot's id. -/
theorem Unjoined.client {w : OpenedSession} (hu : Unjoined cfg w.1.1 (w.2 k) k)
    (hrun : Runs cfg c ls w.1) (hin : w.1.1.client.InStep) {l : ClientLabel}
    {r : Client × Option Outgoing} (hs : w.1.1.client.step l = some r)
    (hk : w.1.1.host.hs.addrAt k = some cfg.clientAddr) (ho : OpenedSession.Orderly cfg w k (.client l))
    (hnot : r.1.cs.isJoinedAs (senderId k) = false) :
    Unjoined cfg (w.1.1.clientMoved cfg r) (w.2 k) k := by
  obtain ⟨c', out⟩ := r
  have hi := hrun.client_inv.1
  rcases Client.step_turn hi hs with ⟨nowUs, control, rfl, htasks, hwelcome, hphase, rfl⟩ | ⟨hback, hmono⟩
  · -- The WELCOME of this join would have Joined it.
    obtain ⟨hjoining, hown⟩ := ho htasks hwelcome
    obtain ⟨id, sessionId, sampleRate, frameSamples, codec, roster, hphase'⟩ :=
      Client.welcomeInHand_iff.mp hwelcome
    obtain rfl : id = senderId k := by
      rcases hown with hid | hfresh
      · rw [Client.idInHand, hphase'] at hid
        exact Option.some.inj hid
      · obtain ⟨i, header, hinHand, hcar⟩ := hrun.inHand _ hphase'
        obtain ⟨k', hk', rfl⟩ := (hrun.welcomes _ _ _ _ _ _ _ _ hcar).2 (hfresh i hinHand)
        rw [hrun.host_inv.1.distinct k k' _ hk hk']
    obtain rfl := Option.some.inj (ClientLoop.handshake.inj (hphase.symm.trans hphase'))
    have hjoined := Client.runHandshake_welcome hjoining (senderId k) sessionId sampleRate frameSamples codec
      roster
    unfold ClientHandshake.isJoinedAs at hnot
    rw [hjoined] at hnot
    simp at hnot
  · refine ⟨hu.pending, ?_, ?_, hu.events, hu.unfed⟩
    · by_contra hj
      have := hback (Bool.not_eq_false _ ▸ hj)
      rw [hu.machine] at this
      cases this
    · intro i e header payload
      refine hu.sent_client (.client hs) hmono ?_
      rintro o header payload rfl hp
      exact Client.step_unjoined hi hin hu.machine hs hp

/-- The receive thread of the client answers PINGs, and otherwise sends nothing. -/
theorem Unjoined.clientRecv (hu : Unjoined cfg s opened k) {i nowUs t3Us : Nat} {e : Envelope}
    {r : Client × Option Outgoing} (hn : s.net[i]? = some e) (hd : e.dst = cfg.clientAddr)
    (hr : s.client.receive e.src e.bytes nowUs t3Us = some r) :
    Unjoined cfg (s.clientMoved cfg r) opened k := by
  obtain ⟨c', out⟩ := r
  have hrec := Client.receive_spec hr
  refine ⟨hu.pending, hrec.cs ▸ hu.machine, ?_, hu.events, hu.unfed⟩
  intro j e' header payload
  refine hu.sent_client (.clientRecv hn hd hr) ?_ ?_
  · intro hwelcome
    rwa [Client.welcomeInHand, hrec.phase]
  · rintro o header payload rfl hp
    exact Client.receive_unjoined hr hp

theorem Runs.inStep (h : Runs cfg c ls w) : w.1.client.InStep := by
  refine h.induction (p := fun s _ => s.client.InStep) (Client.inStep_new _ _ _) ?_
  intro ls s g l t hrun hp _ hev
  cases hev with
  | host _ => exact hp
  | hostRecv _ _ _ => exact hp
  | strangerRecv _ _ _ => exact hp
  | client hs => exact hp.step hrun.client_inv.1 hs
  | clientRecv _ _ hr => exact hp.receive hr

end Runs

end Session

namespace OpenedSession

open Session

variable {cfg : SessionConfig} {ls : List SessionLabel} {w : OpenedSession}

theorem opened_joins {g : Fin maxClients → Nat} {w v : Watched} {l : HostLabel} {k : Fin maxClients}
    (hj : w.1.host.joins l k = true) : opened g w (.host l) v k = w.1.net.length :=
  if_pos hj

theorem opened_same {g : Fin maxClients → Nat} {w v : Watched} {l : SessionLabel} {k : Fin maxClients}
    (hl : ∀ hl, l = .host hl → w.1.host.joins hl k = false) : opened g w l v k = g k := by
  cases l with
  | host hl' => exact if_neg (Bool.eq_false_iff.mp (hl hl' rfl))
  | _ => rfl

/-- A slot that the client has after a step for which `ClientJoined` is not executed in it. -/
theorem before_step {s t : Session} {g : SessionLog} {l : SessionLabel} (hev : Event cfg s l t)
    {k : Fin maxClients} (hk : t.host.hs.addrAt k = some cfg.clientAddr) (hn : ¬ t.host.Opening k)
    (hl : ∀ hl, l = .host hl → s.host.joins hl k = false)
    (hg : (SessionLog.observe cfg g s l t).joinedIn k = false) :
    s.host.hs.addrAt k = some cfg.clientAddr ∧ ¬ s.host.Opening k ∧ g.joinedIn k = false ∧
      t.client.cs.isJoinedAs (senderId k) = false := by
  have hjoined : g.joinedIn k = false ∧ t.client.cs.isJoinedAs (senderId k) = false := by
    rw [← Bool.or_eq_false_iff, ← hg]
    cases l with
    | host hl' =>
      show _ = ((if s.host.joins hl' k then false else g.joinedIn k) || _)
      rw [hl hl' rfl]
      rfl
    | _ => rfl
  have received : ∀ {src bytes nowUs t3Us r}, s.host.receive src bytes nowUs t3Us = some r →
      r.1.hs.addrAt k = some cfg.clientAddr → ¬ r.1.Opening k →
        s.host.hs.addrAt k = some cfg.clientAddr ∧ ¬ s.host.Opening k := by
    intro src bytes nowUs t3Us r hr hk hn
    have hrec := Host.receive_spec (o := r.2) hr
    refine ⟨hrec.hs ▸ hk, fun ho => hn ?_⟩
    rw [Host.Opening, hrec.tasks]
    exact ho
  have hhost : s.host.hs.addrAt k = some cfg.clientAddr ∧ ¬ s.host.Opening k := by
    cases hev with
    | host hs =>
      have hm := Host.move_of_step hs
      exact ⟨(hm.opens hk).resolve_right hn, fun ho => hn (hm.opening ho (hl _ rfl))⟩
    | hostRecv _ _ hr => exact received hr hk hn
    | strangerRecv _ _ hr => exact received hr hk hn
    | client _ => exact ⟨hk, hn⟩
    | clientRecv _ _ _ => exact ⟨hk, hn⟩
  exact ⟨hhost.1, hhost.2, hjoined⟩

/-- The run lemma: whoever has not been Joined since `ClientJoined` has not told the host so. -/
theorem Runs.unjoined (h : Runs cfg (JoinsOrderly cfg) ls w) : ∀ k,
    w.1.1.host.hs.addrAt k = some cfg.clientAddr → ¬ w.1.1.host.Opening k → w.1.2.joinedIn k = false →
      Unjoined cfg w.1.1 (w.2 k) k := by
  refine h.invariant (p := fun w => ∀ k, w.1.1.host.hs.addrAt k = some cfg.clientAddr →
    ¬ w.1.1.host.Opening k → w.1.2.joinedIn k = false → Unjoined cfg w.1.1 (w.2 k) k)
    (fun k hk => by cases hk) ?_
  intro ls w l v hr hp hc hs k hk hn hg
  obtain ⟨hs, hat⟩ := watch_eq_some.mp hs
  have hrun : Session.Runs cfg (fun _ _ => True) ls w.1 := Steps.of_watch hr
  obtain ⟨⟨s, g⟩, opened⟩ := w
  obtain ⟨⟨t, g'⟩, opened'⟩ := v
  obtain ⟨hstep, hlog⟩ := watch_eq_some.mp hs
  have hev := Session.event_of_step hstep
  replace hlog : g' = SessionLog.observe cfg g s l t := hlog
  replace hat : opened' = OpenedSession.opened opened (s, g) l (t, g') := hat
  subst hlog hat
  by_cases hl : ∀ hl, l = .host hl → s.host.joins hl k = false
  · obtain ⟨hk₀, hn₀, hg₀, hnot⟩ := before_step hev hk hn hl hg
    have hu := hp k hk₀ hn₀ hg₀
    have ho : Orderly cfg ((s, g), opened) k l :=
      hc k (awaits_of_pending hk₀ hu.pending) (ClientHandshake.not_joinedAs hu.machine _)
    show Unjoined cfg t (OpenedSession.opened opened (s, g) l (t, SessionLog.observe cfg g s l t) k) k
    rw [opened_same hl]
    cases hev with
    | host hmove => exact hu.host hrun hmove (hl _ rfl) hk₀ hk
    | @hostRecv i nowUs t3Us e r hi hd hr =>
      refine hu.arrives (.hostRecv hi hd hr) hr fun header payload hparse => ?_
      have harrives := ho e hi
      split at harrives
      · rename_i hsrc
        exact (hu.belongs (w := ((s, g), opened)) hi hsrc hparse
          (harrives _ (parses_iff_read.mp hparse))).imp id (.imp (fun hover _ => hover) id)
      · rename_i hsrc
        exact .inr ⟨fun he => absurd he hsrc, harrives⟩
    | strangerRecv hh hcl hr =>
      refine hu.arrives (.strangerRecv hh hcl hr) hr fun header payload hparse => ?_
      exact .inr ⟨fun he => absurd he hcl, ho⟩
    | client hmove => exact hu.client (w := ((s, g), opened)) hrun hrun.inStep hmove hk₀ ho hnot
    | clientRecv hi hd hr => exact hu.clientRecv hi hd hr
  · -- `ClientJoined` itself.
    obtain ⟨hl', rfl, hj⟩ : ∃ hl', l = .host hl' ∧ s.host.joins hl' k = true := by
      simpa using hl
    show Unjoined cfg t (OpenedSession.opened opened (s, g) (.host hl')
      (t, SessionLog.observe cfg g s (.host hl') t) k) k
    rw [opened_joins hj]
    cases hev with
    | @host _ r hmove =>
      have hm : Host.Move s.host hl' r.1 r.2 := Host.move_of_step hmove
      have hpending := hrun.host_inv.1.opening_pending (Host.joins_opening hj)
      have hk₀ : s.host.hs.addrAt k = some cfg.clientAddr :=
        (hm.joins_lastRxUs hj).2.2.1 ▸ hk
      have hnot : s.client.cs.isJoinedAs (senderId k) = false := (Bool.or_eq_false_iff.mp hg).2
      obtain ⟨hmachine, hevs⟩ := hc k (awaits_of_pending hk₀ hpending) hnot hj
      exact .of_joins hrun hmove hj hmachine hevs

end OpenedSession

namespace Session

/-- Join acknowledgement: while the host waits for the client and the client is not Joined with the slot's
id, let the network hand the host no PONG of the client, no ACK that overtakes the join, nothing that counts
for the slot but what the client sent since `ClientJoined`, and of what it sent before only HELLOs, PINGs and
BYEs of this session, and let the client be handed no WELCOME of an earlier join with another id. Then
every Active slot of the client is one it was Joined with since the host executed `ClientJoined` for it. -/
theorem join_acknowledged (cfg : SessionConfig) (ls : List SessionLabel) (w : OpenedSession)
    (h : OpenedSession.Runs cfg (OpenedSession.JoinsOrderly cfg) ls w) (k : Fin maxClients) (s : HsSlot)
    (hs : w.1.1.host.hs.slots k = some s) (haddr : s.addr = cfg.clientAddr)
    (hactive : s.state = .active) : w.1.2.joinedIn k = true := by
  by_contra hno
  have hrun : Runs cfg (fun _ _ => True) ls w.1 := Steps.of_watch h
  have hk : w.1.1.host.hs.addrAt k = some cfg.clientAddr := haddr ▸ addrAt_of_slots hs
  have hopened : ¬ w.1.1.host.Opening k := fun ho =>
    hrun.host_inv.1.opening_pending ho s hs hactive
  have hu := h.unjoined k hk hopened (Bool.eq_false_of_not_eq_true hno)
  exact hu.pending s hs hactive

/-- The first WELCOME is lost. The client says HELLO again while the host waits for it, joins, and its ACK
arrives after that. -/
def ackedJoin : List SessionLabel :=
  Scenario.hello ++ [.client (.wake 501)] ++ Scenario.client 6 501000 ++ Scenario.rx 3 ++
    [.hostRecv 2 510000 510000, .host (.wake 510)] ++ Scenario.host 10 510000 ++ Scenario.rx 2 ++
    [.clientRecv 3 520000 520000, .client (.wake 520)] ++ Scenario.client 4 520000 ++
    [.hostRecv 5 530000 530000, .host (.wake 530)]

theorem join_acknowledged_acked : ∃ w s,
    OpenedSession.Runs Scenario.cfg (OpenedSession.JoinsOrderly Scenario.cfg) ackedJoin w ∧
      w.1.1.host.hs.slots 0 = some s ∧ s.state = .active ∧ w.1.2.joinedIn 0 = true := by
  obtain ⟨w, hr, hp⟩ := OpenedSession.Runs.of_test Scenario.cfg ackedJoin
    (fun w => (w.1.1.host.hs.slots 0).any fun s => s.addr = Scenario.clientAddr && s.state = .active)
    (by decide +kernel)
  obtain ⟨s, hs, hs'⟩ := (Option.any_eq_true _ _).mp hp
  simp only [Bool.and_eq_true, decide_eq_true_eq] at hs'
  exact ⟨w, s, hr, hs, hs'.2, join_acknowledged Scenario.cfg ackedJoin w hr 0 s hs hs'.1 hs'.2⟩

/-- The WELCOME is lost. The client, still Joining, answers the host's PING. -/
def unjoinedPong : List SessionLabel :=
  Scenario.hello ++ [.host (.wake 1010)] ++ Scenario.host 8 1010000 ++ Scenario.rx 3 ++
    [.clientRecv 3 1011000 1011000, .hostRecv 4 1012000 1012000] ++ Scenario.host 3 1010000 ++
    [.host (.wake 1013)]

/-- The answer to a PING makes the slot of a client Active that has never been Joined. -/
theorem active_without_join : ¬ ∀ (cfg : SessionConfig) (ls : List SessionLabel) (w : Watched),
    Runs cfg (fun _ _ => True) ls w → ∀ (k : Fin maxClients) (s : HsSlot),
      w.1.host.hs.slots k = some s → s.addr = cfg.clientAddr → s.state = .active →
        w.2.joinedIn k = true := by
  intro hall
  obtain ⟨w, hr, hp⟩ := Runs.of_test Scenario.cfg unjoinedPong (fun _ _ => true)
    (fun w => ((w.1.host.hs.slots 0).any fun s =>
      s.addr = Scenario.clientAddr && s.state = .active) && ! w.2.joinedIn 0)
    (c := fun _ _ => True) (fun _ _ _ => trivial) (by decide +kernel)
  rw [Bool.and_eq_true, Bool.not_eq_true', Option.any_eq_true] at hp
  obtain ⟨⟨s, hs, hs'⟩, hnot⟩ := hp
  simp only [Bool.and_eq_true, decide_eq_true_eq] at hs'
  have hj := hall Scenario.cfg unjoinedPong w hr 0 s hs hs'.1 hs'.2
  exact absurd (hnot.symm.trans hj) (by decide)

end Session

end OnlineJam
