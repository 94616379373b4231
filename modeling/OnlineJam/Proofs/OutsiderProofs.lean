import OnlineJam.Core.HostHandler
import OnlineJam.Core.HostRun
import OnlineJam.Proofs.HeardProofs

/-!
# Host process: outsiders

A datagram from an address that has no slot and is in no table, unless it is a HELLO that is admitted.
-/

namespace OnlineJam

open OnlineJam.Lib
open HostHandshake

namespace HostHandshake

theorem mapSlots_eq_self {hs : HostHandshake} {f : HsSlot → HsSlot}
    (h : ∀ i s, hs.slots i = some s → f s = s) : hs.mapSlots f = hs := by
  have hslots : (fun i => (hs.slots i).map f) = hs.slots := by
    funext i
    cases hi : hs.slots i with
    | none => rfl
    | some s => rw [Option.map_some, h i s hi]
  rw [mapSlots, hslots]

theorem removeWhere_eq_self {hs : HostHandshake} {pred : HsSlot → Bool} {reason : LeaveReason}
    (h : ∀ i s, hs.slots i = some s → pred s = false) : hs.removeWhere pred reason = ([], hs) := by
  have hany : ∀ i, (hs.slots i).any pred = false := by
    intro i
    cases hi : hs.slots i with
    | none => rfl
    | some s => exact h i s hi
  have hgone : (indices.filter fun i => (hs.slots i).any pred) = [] := by
    refine List.filter_eq_nil_iff.mpr fun i _ => ?_
    rw [hany i]
    exact Bool.false_ne_true
  have hslots : (fun i => if (hs.slots i).any pred then none else hs.slots i) = hs.slots := by
    funext i
    rw [hany i]
    rfl
  unfold removeWhere
  simp only
  rw [hgone, hslots]
  rfl

theorem onAck_eq_self {hs : HostHandshake} {addr : SocketAddr} (h : ∀ i, hs.addrAt i ≠ some addr)
    (ackedSeq : UInt16) (nowMs : Nat) : hs.onAck addr ackedSeq nowMs = ([], hs) := by
  rw [onAck, mapSlots_eq_self]
  exact fun i s hi => if_neg fun ha : s.addr = addr => h i (ha ▸ addrAt_of_slots hi)

theorem onBye_eq_self {hs : HostHandshake} {addr : SocketAddr} (h : ∀ i, hs.addrAt i ≠ some addr) :
    hs.onBye addr = ([], hs) :=
  removeWhere_eq_self fun i _ hi => decide_eq_false fun ha => h i (ha ▸ addrAt_of_slots hi)

/-- A HELLO from somebody without a slot that is not admitted is denied. -/
theorem onHello_outside {hs : HostHandshake} {addr : SocketAddr} (h : ∀ i, hs.addrAt i ≠ some addr)
    {hello : Control} (hno : ¬ hs.Admits hello) (nowMs : Nat) :
    hs.onHello addr hello nowMs = ([], hs) ∨
      ∃ reason, hs.onHello addr hello nowMs = ([.send addr (.deny reason)], hs) := by
  have hans := onHello_answers hs addr hello nowMs
  revert hans
  generalize hs.onHello addr hello nowMs = r
  intro hans
  cases hans with
  | ignores hne => exact .inl rfl
  | refuses hr hno => exact .inr ⟨_, rfl⟩
  | full hnew hfull => exact .inr ⟨_, rfl⟩
  | again hello_eq haddr => exact absurd haddr (h _)
  | joins hello_eq hnew hfree => exact absurd ⟨_, _, _, hello_eq⟩ hno

end HostHandshake

namespace Host

/-! ## The handler and the steps of the loop -/

/-- The same host at another point of its control loop. -/
def loopAt (h : Host) (nowMs : Nat) (phase : HostPhase) (tasks : List HostTask)
    (events : List CtrlEvent) : Host :=
  { h with nowMs := nowMs, phase := phase, tasks := tasks, events := events }

theorem perform_loopAt (h : Host) (nowUs : Nat) (task : HostTask) (nowMs : Nat) (phase : HostPhase)
    (tasks : List HostTask) (events : List CtrlEvent) :
    (h.loopAt nowMs phase tasks events).perform nowUs task =
      ((h.perform nowUs task).1.loopAt nowMs phase tasks events, (h.perform nowUs task).2) := by
  cases task with
  | act action =>
    cases action with
    | send dst control => cases control <;> rfl
    | clientJoined sender name =>
      rw [perform, perform]
      split <;> rfl
    | clientLeft sender reason =>
      rw [perform, perform]
      split <;> rfl
  | _ => rfl

theorem runTasks_steps (h : Host) (nowUs nowMs : Nat) (phase : HostPhase) (tasks : List HostTask)
    (events : List CtrlEvent) :
    exec next (h.loopAt nowMs phase tasks events)
        (List.replicate tasks.length (.step (.control nowUs))) =
      some ((runTasks nowUs tasks h).1.loopAt nowMs phase [] events) := by
  induction tasks generalizing h with
  | nil => rfl
  | cons task tasks ih =>
    have hstep : next (h.loopAt nowMs phase (task :: tasks) events) (.step (.control nowUs)) =
        some ((h.perform nowUs task).1.loopAt nowMs phase tasks events) :=
      congrArg some (congrArg Prod.fst (perform_loopAt h nowUs task nowMs phase tasks events))
    rw [List.length_cons, List.replicate_succ, exec_cons, hstep, Option.bind_some, ih]
    rfl

/-- `handleEvent` is what the control loop does from the return of `recv_timeout` with the event up to
the liveness feed. -/
theorem handleEvent_steps {h : Host} {ev : CtrlEvent} {events : List CtrlEvent} (ht : h.tasks = [])
    (hphase : h.phase = .wait) (hev : h.events = ev :: events) (nowMs nowUs : Nat) :
    exec next h (.step (.wake nowMs) ::
        List.replicate (dispatch h.hs h.shared.sessionId ev nowMs).1.length (.step (.control nowUs))) =
      some ((h.handleEvent ev nowMs nowUs).1.loopAt nowMs (.feed 0) [] events) := by
  have hwake : next h (.step (.wake nowMs)) = some (loopAt
      { h with shared := h.measure ev, hs := (dispatch h.hs h.shared.sessionId ev nowMs).2 } nowMs
      (.feed 0) ((dispatch h.hs h.shared.sessionId ev nowMs).1.map HostTask.act) events) := by
    rw [next, step, if_pos ⟨ht, hphase⟩, wake, hev]
    rfl
  rw [exec_cons, hwake, Option.bind_some, ← List.length_map, runTasks_steps]
  rfl

/-! ## Outsiders -/

/-- Nobody has this address: neither a slot nor an entry of the receive thread's table. -/
def Outside (h : Host) (src : SocketAddr) : Prop :=
  (∀ i, h.hs.addrAt i ≠ some src) ∧ ∀ i, h.rx.clientAddrs i ≠ some src

theorem dispatch_outside {hs : HostHandshake} {ev : CtrlEvent} (h : ∀ i, hs.addrAt i ≠ some ev.src)
    (hno : ¬ hs.Admits ev.control) (sessionId : UInt16) (nowMs : Nat) :
    dispatch hs sessionId ev nowMs = ([], hs) ∨
      ∃ reason, dispatch hs sessionId ev nowMs = ([.send ev.src (.deny reason)], hs) := by
  obtain ⟨heard, _, hheard, hdisp⟩ := dispatch_heard hs sessionId ev nowMs
  obtain ⟨_, rfl⟩ : (∀ i, hs.addrAt i ≠ some ev.src) ∧ heard = hs := by
    rcases hheard with hh | ⟨i, hi, _⟩
    · exact hh
    · exact absurd hi (h i)
  generalize dispatch heard sessionId ev nowMs = r at hdisp ⊢
  cases hdisp with
  | hello => exact onHello_outside h hno nowMs
  | ack => exact .inl (onAck_eq_self h _ _)
  | bye => exact .inl (onBye_eq_self h)
  | other => exact .inl rfl

theorem measure_outside {h : Host} {ev : CtrlEvent} (hout : ∀ i, h.hs.addrAt i ≠ some ev.src) :
    h.measure ev = h.shared := by
  have hnone : h.hs.senderForAddr ev.src = none := by
    rw [HostHandshake.senderForAddr, slotForAddr_eq_none.mpr hout]
    rfl
  unfold measure
  rw [hnone]
  split
  · rename_i hslot
    cases hslot
  · rfl

theorem handleEvent_outside {h : Host} {ev : CtrlEvent} (hout : ∀ i, h.hs.addrAt i ≠ some ev.src)
    (hno : ¬ h.hs.Admits ev.control) (nowMs nowUs : Nat) :
    ∃ seq outs, h.handleEvent ev nowMs nowUs = ({ h with seq := seq }, outs) ∧ outs.length ≤ 1 ∧
      ∀ o ∈ outs, o.dst = ev.src := by
  unfold handleEvent
  rw [measure_outside hout]
  rcases dispatch_outside hout hno h.shared.sessionId nowMs with hd | ⟨reason, hd⟩
  · rw [hd]
    exact ⟨h.seq, [], rfl, Nat.zero_le _, fun o ho => by cases ho⟩
  · rw [hd]
    refine ⟨h.seq.next.2, _, rfl, le_rfl, fun o ho => ?_⟩
    rw [List.mem_singleton.mp ho]

/-- The receive routine answers a PING or hands a control packet on, and nothing else. -/
theorem routeHost_outside (cfg : RxConfig) {rx : RxState} {src : SocketAddr}
    (htable : ∀ i, rx.clientAddrs i ≠ some src) (shared : HostShared) (bytes : Bytes) (nowUs t3Us : Nat) :
    let r := routeHost cfg nowUs t3Us rx shared src bytes
    r.rx = rx ∧ r.shared = shared ∧ (r.reply = none ∨ r.event = none) ∧
      ∀ ev, r.event = some ev → ev.src = src ∧ ∃ header, Parses bytes header (.control ev.control) := by
  have ignored : rx = rx ∧ shared = shared ∧ ((none : Option Bytes) = none ∨ (none : Option CtrlEvent) = none) ∧
      ∀ ev, (none : Option CtrlEvent) = some ev →
        ev.src = src ∧ ∃ header, Parses bytes header (.control ev.control) :=
    ⟨rfl, rfl, .inl rfl, fun ev hev => by cases hev⟩
  dsimp only
  unfold routeHost
  split
  · exact ⟨rfl, rfl, .inr rfl, fun ev hev => by cases hev⟩
  · split
    · exact ignored
    split
    · exact ignored
    split
    · exact ignored
    · rename_i haddr
      exact absurd (not_not.mp haddr) (htable _)
  · rename_i header control _ hp
    refine ⟨rfl, ?_, .inl rfl, fun ev hev => ?_⟩
    · dsimp only
      split
      · exact if_neg (htable _)
      · rfl
    · rw [← Option.some.inj hev]
      exact ⟨rfl, header, hp⟩
  · exact ignored

/-- Outsiders cannot touch the session: all that changes is the generator of the control packets, and
at most one answer goes back to where the datagram came from. -/
theorem outsider_untouched {h : Host} {src : SocketAddr} (hout : h.Outside src) {bytes : Bytes}
    (hno : ∀ header control, Parses bytes header (.control control) → ¬ h.hs.Admits control)
    (nowUs t3Us nowMs sendUs : Nat) :
    ∃ seq outs, h.handleDatagram src bytes nowUs t3Us nowMs sendUs = ({ h with seq := seq }, outs) ∧
      outs.length ≤ 1 ∧ ∀ o ∈ outs, o.dst = src := by
  obtain ⟨hrx, hshared, hone, hev⟩ := routeHost_outside
    { frameSamples := h.params.frameSamples, sampleRate := h.params.sampleRate } hout.2 h.shared bytes
    nowUs t3Us
  unfold handleDatagram
  dsimp only
  rw [hrx, hshared]
  cases he : (routeHost { frameSamples := h.params.frameSamples, sampleRate := h.params.sampleRate }
      nowUs t3Us h.rx h.shared src bytes).event with
  | none =>
    refine ⟨h.seq, _, rfl, ?_, fun o ho => ?_⟩
    · rw [Option.length_toList]
      split <;> simp
    · obtain ⟨b, _, rfl⟩ := Option.map_eq_some_iff.mp (Option.mem_toList.mp ho)
      rfl
  | some ev =>
    obtain ⟨hsrc, header, hp⟩ := hev ev he
    have hnone := hone.resolve_right (by rw [he]; exact Option.some_ne_none ev)
    obtain ⟨seq, outs, hh, hlen, hdst⟩ := handleEvent_outside (h := h) (hsrc ▸ hout.1)
      (hno header ev.control hp) nowMs sendUs
    refine ⟨seq, outs, ?_, hlen, fun o ho => (hdst o ho).trans hsrc⟩
    rw [hnone]
    show ((h.handleEvent ev nowMs sendUs).1, [] ++ (h.handleEvent ev nowMs sendUs).2) = _
    rw [hh]
    rfl

/-- Somebody forges a BYE in the name of the player in slot 0. -/
theorem outsider_untouched_bye : ∃ es h, Runs Scenario.cfg.host (fun _ _ => True) es h ∧
    (h.hs.slots 0).isSome = true ∧ ∃ seq outs,
      h.handleDatagram Scenario.clientAddr (stampedDatagram 1 .bye Scenario.cfg.host.sessionId 1)
        20000 20000 20 20000 = ({ h with seq := seq }, outs) ∧
      outs.length ≤ 1 ∧ ∀ o ∈ outs, o.dst = Scenario.clientAddr := by
  obtain ⟨h, hr, hh⟩ := Runs.of_test Scenario.cfg.host Scenario.strangerIn
    (fun h => (h.hs.slots 0).isSome && indices.all fun i =>
      h.hs.addrAt i ≠ some Scenario.clientAddr && h.rx.clientAddrs i ≠ some Scenario.clientAddr)
    (by decide +kernel)
  simp only [Bool.and_eq_true, List.all_eq_true, decide_eq_true_eq] at hh
  refine ⟨_, h, hr, hh.1, outsider_untouched ⟨fun i => (hh.2 i (List.mem_finRange i)).1,
    fun i => (hh.2 i (List.mem_finRange i)).2⟩ (fun header control hp => ?_) _ _ _ _⟩
  have hbye : Control.RosterFits .bye := trivial
  obtain ⟨_, hc⟩ := (parses_stampedDatagram _ _ _ hbye).unique hp
  rw [← Payload.control.inj hc]
  rintro ⟨_, _, _, he⟩
  cases he

end Host

end OnlineJam
