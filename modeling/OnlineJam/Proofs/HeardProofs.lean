import OnlineJam.Proofs.OccupantProofs

/-!
# Host process: when a player was heard

A packet from a player sets the time at which its slot was last heard. The feed that follows in the same
iteration writes the time of the last datagram that the receive thread counted for the slot over it,
which may be older. The player is dropped all the same only if that is too old for the tick.
-/

namespace OnlineJam

open OnlineJam.Lib
open HostHandshake

namespace HostHandshake

/-- No slot is heard, and none becomes Pending. -/
def Unheard (hs hs' : HostHandshake) : Prop :=
  ∀ k s', hs'.slots k = some s' → ∃ s, hs.slots k = some s ∧ s'.lastHeardMs = s.lastHeardMs ∧
    (s'.state ≠ .active → s.state ≠ .active)

/-- A slot is as it was or was heard now. -/
def HeardBy (nowMs : Nat) (hs hs' : HostHandshake) : Prop :=
  ∀ k s', hs'.slots k = some s' → s'.lastHeardMs = nowMs ∨ hs.slots k = some s'

theorem Unheard.refl (hs : HostHandshake) : Unheard hs hs := fun _ s' hk => ⟨s', hk, rfl, id⟩

theorem HeardBy.refl (nowMs : Nat) (hs : HostHandshake) : HeardBy nowMs hs hs := fun _ _ hk => .inr hk

theorem HeardBy.trans {nowMs : Nat} {hs hs' hs'' : HostHandshake} (h : HeardBy nowMs hs hs')
    (h' : HeardBy nowMs hs' hs'') : HeardBy nowMs hs hs'' := by
  intro k s'' hk
  rcases h' k s'' hk with hnow | hk'
  · exact .inl hnow
  · exact h k s'' hk'

theorem unheard_welcomeSent (hs : HostHandshake) (dst : SocketAddr) (seq : UInt16) :
    Unheard hs (hs.welcomeSent dst seq) := by
  intro k s' hk
  obtain ⟨s, hs', rfl⟩ := Option.map_eq_some_iff.mp hk
  refine ⟨s, hs', ?_⟩
  split
  · split
    · rename_i hpending
      exact ⟨rfl, fun _ hactive => by rw [hpending] at hactive; cases hactive⟩
    · exact ⟨rfl, id⟩
  · exact ⟨rfl, id⟩

theorem unheard_tick (hs : HostHandshake) (nowMs : Nat) : Unheard hs (hs.tick nowMs).2 := by
  intro k s' hk
  obtain ⟨s, hs', ht⟩ := Option.bind_eq_some_iff.mp
    (show (hs.slots k).bind (tickEntry nowMs) = some s' from hk)
  refine ⟨s, hs', by rw [tickEntry_eq ht], fun hpending hactive => hpending ?_⟩
  unfold tickEntry tickSlot at ht
  rw [hactive] at ht
  by_cases hlate : nowMs - s.lastHeardMs > peerTimeoutMs
  · rw [if_pos hlate] at ht
    cases ht
  · rw [if_neg hlate] at ht
    rw [← Option.some.inj ht, hactive]

theorem heardBy_setSlot {hs : HostHandshake} {i : Fin maxClients} {s : HsSlot} {nowMs : Nat}
    (hs' : s.lastHeardMs = nowMs) : HeardBy nowMs hs (hs.setSlot i (some s)) := by
  intro k s' hk
  have hk : Function.update hs.slots i (some s) k = some s' := hk
  rw [Function.update_apply] at hk
  split at hk
  · rw [← Option.some.inj hk]
    exact .inl hs'
  · exact .inr hk

theorem markHeard_slots {hs : HostHandshake} {i : Fin maxClients} {s : HsSlot}
    (hi : hs.slots i = some s) (nowMs : Nat) : hs.markHeard (senderId i) nowMs =
      hs.setSlot i (some { s with lastHeardMs := nowMs, state := .active }) := by
  rw [markHeard, slotOfSender_senderId]
  dsimp only
  rw [hi]

theorem markHeard_none {hs : HostHandshake} {i : Fin maxClients} (hi : hs.slots i = none)
    (nowMs : Nat) : hs.markHeard (senderId i) nowMs = hs := by
  rw [markHeard, slotOfSender_senderId]
  dsimp only
  rw [hi]

/-- The slot of an address is heard when a HELLO from the address is taken. -/
theorem onHello_heard {hs : HostHandshake} {addr : SocketAddr} (hello : Control) {nowMs : Nat}
    (hnow : ∀ k s, hs.slots k = some s → s.addr = addr → s.lastHeardMs = nowMs) :
    HeardBy nowMs hs (hs.onHello addr hello nowMs).2 ∧
      ∀ k s', (hs.onHello addr hello nowMs).2.slots k = some s' → s'.addr = addr →
        s'.lastHeardMs = nowMs := by
  have set : ∀ slot name, ∀ k s', (hs.setSlot slot (some (newcomer addr name nowMs))).slots k = some s' →
      s'.addr = addr → s'.lastHeardMs = nowMs := by
    intro slot name k s' hk haddr
    have hk : Function.update hs.slots slot (some (newcomer addr name nowMs)) k = some s' := hk
    rw [Function.update_apply] at hk
    split at hk
    · rw [← Option.some.inj hk]
      rfl
    · exact hnow k s' hk haddr
  have hans := onHello_answers hs addr hello nowMs
  generalize hs.onHello addr hello nowMs = r at hans ⊢
  cases hans with
  | ignores hne => exact ⟨HeardBy.refl _ _, hnow⟩
  | refuses hr hno => exact ⟨HeardBy.refl _ _, hnow⟩
  | full hnew hfull => exact ⟨HeardBy.refl _ _, hnow⟩
  | again hello_eq haddr => exact ⟨heardBy_setSlot rfl, set _ _⟩
  | joins hello_eq hnew hfree => exact ⟨heardBy_setSlot rfl, set _ _⟩

theorem onAck_heard (hs : HostHandshake) (addr : SocketAddr) (ackedSeq : UInt16) (nowMs : Nat) :
    HeardBy nowMs hs (hs.onAck addr ackedSeq nowMs).2 ∧
      ∀ k s', (hs.onAck addr ackedSeq nowMs).2.slots k = some s' → s'.addr = addr →
        s'.lastHeardMs = nowMs := by
  have ack : ∀ k s', (hs.onAck addr ackedSeq nowMs).2.slots k = some s' →
      s'.lastHeardMs = nowMs ∨ s'.addr ≠ addr ∧ hs.slots k = some s' := by
    intro k s' hk
    obtain ⟨s, hs', rfl⟩ := Option.map_eq_some_iff.mp hk
    by_cases haddr : s.addr = addr
    · left
      rw [if_pos haddr]
      split <;> rfl
    · right
      rw [if_neg haddr]
      exact ⟨haddr, hs'⟩
  constructor
  · intro k s' hk
    rcases ack k s' hk with hnow | ⟨_, hold⟩
    · exact .inl hnow
    · exact .inr hold
  · intro k s' hk haddr
    rcases ack k s' hk with hnow | ⟨hne, _⟩
    · exact hnow
    · exact absurd haddr hne

theorem removeWhere_heard (hs : HostHandshake) (pred : HsSlot → Bool) (reason : LeaveReason)
    {k : Fin maxClients} {s' : HsSlot} (hk : (hs.removeWhere pred reason).2.slots k = some s') :
    hs.slots k = some s' := by
  have hk : (if (hs.slots k).any pred then none else hs.slots k) = some s' := hk
  split at hk
  · cases hk
  · exact hk

/-- A clock tick that ends a player's session for silence was late enough. -/
theorem tick_timeout {hs : HostHandshake} {nowMs : Nat} {k : Fin maxClients}
    (h : .clientLeft (senderId k) .timeout ∈ (hs.tick nowMs).1) :
    ∃ s, hs.slots k = some s ∧ s.lastHeardMs + peerTimeoutMs < nowMs := by
  unfold tick at h
  simp only [List.mem_append] at h
  rcases h with (h | h) | h
  · obtain ⟨i, _, hi⟩ := List.mem_filterMap.mp h
    split at hi
    · rename_i reason ho
      obtain ⟨hid, rfl⟩ := HostAction.clientLeft.inj (Option.some.inj hi)
      obtain rfl := senderId_inj hid
      obtain ⟨s, hs', ht⟩ := Option.map_eq_some_iff.mp ho
      refine ⟨s, hs', ?_⟩
      unfold tickSlot at ht
      split at ht
      · omega
      · split at ht
        · split at ht
          · split at ht <;> cases ht
          · cases ht
        · cases ht
    · cases hi
  · obtain ⟨i, _, hi⟩ := List.mem_filterMap.mp h
    split at hi <;> cases hi
  · split at h
    · cases h
    · obtain ⟨dst, hdst⟩ := mem_broadcastRoster h
      cases hdst

end HostHandshake

namespace Host

/-- An event from the address of a slot sets the time of the slot. -/
theorem dispatch_heardBy {hs : HostHandshake} (hd : hs.Distinct) (sessionId : UInt16) (ev : CtrlEvent)
    (nowMs : Nat) : HeardBy nowMs hs (dispatch hs sessionId ev nowMs).2 ∧
      ∀ k s', (dispatch hs sessionId ev nowMs).2.slots k = some s' → s'.addr = ev.src →
        s'.lastHeardMs = nowMs := by
  obtain ⟨heard, hkeep, hheard, hdisp⟩ := dispatch_heard hs sessionId ev nowMs
  have hfirst : HeardBy nowMs hs heard ∧
      ∀ k s, heard.slots k = some s → s.addr = ev.src → s.lastHeardMs = nowMs := by
    rcases hheard with ⟨hnone, rfl⟩ | ⟨i, hi, rfl⟩
    · refine ⟨HeardBy.refl _ _, fun k s hk haddr => ?_⟩
      exact absurd (by rw [addrAt_of_slots hk, haddr]) (hnone k)
    · obtain ⟨s, hs', haddr⟩ := addrAt_eq_some.mp hi
      rw [markHeard_slots hs']
      refine ⟨heardBy_setSlot rfl, fun k s' hk haddr' => ?_⟩
      have hk : Function.update hs.slots i _ k = some s' := hk
      rw [Function.update_apply] at hk
      split at hk
      · rw [← Option.some.inj hk]
      · rename_i hne
        exact absurd (hd k i ev.src (by rw [addrAt_of_slots hk, haddr']) hi) hne
  generalize dispatch hs sessionId ev nowMs = r at hdisp ⊢
  cases hdisp with
  | hello =>
    obtain ⟨hby, hnow⟩ := onHello_heard ev.control hfirst.2
    exact ⟨hfirst.1.trans hby, hnow⟩
  | ack =>
    obtain ⟨hby, hnow⟩ := onAck_heard heard ev.src _ nowMs
    exact ⟨hfirst.1.trans hby, hnow⟩
  | bye =>
    exact ⟨fun k s' hk => hfirst.1 k s' (removeWhere_heard _ _ _ hk),
      fun k s' hk => hfirst.2 k s' (removeWhere_heard _ _ _ hk)⟩
  | other => exact hfirst

/-- A step of the threads leaves the time of the loop alone, but for the return of `recv_timeout`. -/
theorem nowMs_step {h h' : Host} {l : HostLabel} {out : Option Outgoing}
    (hs : h.step l = some (h', out)) : h'.nowMs = h.nowMs ∨ ∃ nowMs, l = .wake nowMs ∧ h'.nowMs = nowMs := by
  cases l with
  | control nowUs =>
    left
    rw [step] at hs
    split at hs
    · rename_i task tasks _
      have hs : ({ h with tasks := tasks }.perform nowUs task) = (h', out) := Option.some.inj hs
      rw [show h' = ({ h with tasks := tasks }.perform nowUs task).1 from congrArg Prod.fst hs.symm]
      cases hp : task.packet nowUs with
      | some p => rw [perform_packet hp]
      | none => exact (perform_silent hp).1.nowMs
    · obtain ⟨h2, ha, he⟩ := Option.map_eq_some_iff.mp hs
      rw [← (Prod.mk.inj he).1]
      unfold advance at ha
      split at ha
      · split at ha <;> rw [← Option.some.inj ha]
      · split at ha <;> rw [← Option.some.inj ha]
      · rw [← Option.some.inj ha]
      · split at ha <;> rw [← Option.some.inj ha]
      · split at ha <;> rw [← Option.some.inj ha]
      · cases ha
      · cases ha
  | wake nowMs =>
    rw [step] at hs
    split at hs
    · rw [← (Prod.mk.inj (Option.some.inj hs)).1]
      unfold wake
      split
      · exact .inr ⟨nowMs, rfl, rfl⟩
      · split
        · exact .inl rfl
        · exact .inr ⟨nowMs, rfl, rfl⟩
    · cases hs
  | rx =>
    left
    obtain ⟨h2, ha, he⟩ := Option.map_eq_some_iff.mp hs
    rw [← (Prod.mk.inj he).1]
    unfold rxAdvance at ha
    split at ha
    · rw [← Option.some.inj ha]
    · split at ha <;> rw [← Option.some.inj ha]
    · cases ha
    · cases ha
  | rxTimeout =>
    left
    rw [step] at hs
    split at hs
    · rw [← (Prod.mk.inj (Option.some.inj hs)).1]
    · cases hs
  | audio encoded =>
    left
    obtain ⟨h2, ha, he⟩ := Option.map_eq_some_iff.mp hs
    rw [← (Prod.mk.inj he).1]
    obtain ⟨⟨emitted, pipeline⟩, _, rfl⟩ := Option.map_eq_some_iff.mp ha
    rfl
  | tx =>
    left
    rw [step, txAdvance] at hs
    split at hs
    · rw [← (Prod.mk.inj (Option.some.inj hs)).1]
    · split at hs <;> rw [← (Prod.mk.inj (Option.some.inj hs)).1]
    · split at hs <;> rw [← (Prod.mk.inj (Option.some.inj hs)).1]
    · cases hs
  | shutdown =>
    left
    rw [← (Prod.mk.inj (Option.some.inj hs)).1]

/-! ## Runs -/

/-- The session clock, which both threads read, does not go back. -/
def ClockForward (h : Host) : HostEvent → Prop
  | .step (.wake nowMs) => h.nowMs ≤ nowMs
  | .recv _ _ nowUs _ => ∀ k, (h.shared.clients k).lastRxUs ≤ nowUs
  | _ => True

/-- What the receive thread has left in `lastRxUs` is not in the future. -/
def RxInPast (h : Host) : HostEvent → Prop
  | .step (.wake nowMs) => ∀ k, (h.shared.clients k).lastRxUs / 1000 ≤ nowMs
  | _ => True

/-- If the feed comes to a slot no later than `peerTimeoutMs` after an event of its player was processed, it
finds a `lastRxUs` that is no older than that, or none. -/
def RxRecent (w : Host × HostLog) : HostEvent → Prop
  | .step (.control _) =>
    match w.1.phase with
    | .feed slot =>
      let lastRxUs := (w.1.shared.clients slot).lastRxUs
      w.1.tasks = [] → 0 < lastRxUs → ∀ t ∈ w.2.heard slot, w.1.nowMs ≤ t + peerTimeoutMs →
        w.1.nowMs ≤ lastRxUs / 1000 + peerTimeoutMs
    | _ => True
  | _ => True

theorem rxRecent_feed {w : Host × HostLog} {nowUs t : Nat} {slot : Fin maxClients}
    (h : RxRecent w (.step (.control nowUs))) (ht : w.1.tasks = []) (hphase : w.1.phase = .feed slot)
    (hrx : 0 < (w.1.shared.clients slot).lastRxUs) (hheard : w.2.heard slot = some t)
    (hnow : w.1.nowMs ≤ t + peerTimeoutMs) :
    w.1.nowMs ≤ (w.1.shared.clients slot).lastRxUs / 1000 + peerTimeoutMs := by
  unfold RxRecent at h
  rw [hphase] at h
  exact h ht hrx t hheard hnow

/-- The feed has been to slot `k` in this iteration, and the tick is still to come. -/
def Fed (h : Host) (k : Fin maxClients) : Prop :=
  match h.phase with
  | .feed slot => k < slot
  | .tick => True
  | _ => False

theorem fed_congr {h h' : Host} (hphase : h'.phase = h.phase) (k : Fin maxClients) :
    h'.Fed k ↔ h.Fed k := by
  unfold Fed
  rw [hphase]

/-- Only the feed itself comes past a slot. -/
theorem fed_step {h h' : Host} {l : HostLabel} {out : Option Outgoing} (hs : h.step l = some (h', out))
    {k : Fin maxClients} (hf : h'.Fed k) :
    h.Fed k ∨ h.tasks = [] ∧ h.phase = .feed k ∧ ∃ nowUs, l = .control nowUs := by
  have same : h'.phase = h.phase → h.Fed k := fun hphase => (fed_congr hphase k).mp hf
  cases l with
  | control nowUs =>
    rw [step] at hs
    split at hs
    · rename_i task tasks _
      have hp : { h with tasks := tasks }.perform nowUs task = (h', out) := Option.some.inj hs
      have he : h' = ({ h with tasks := tasks }.perform nowUs task).1 := by rw [hp]
      refine .inl (same ?_)
      rw [he]
      cases hpacket : task.packet nowUs with
      | some p => rw [perform_packet hpacket]
      | none => exact (perform_silent hpacket).1.phase
    · rename_i htasks
      obtain ⟨h2, ha, he⟩ := Option.map_eq_some_iff.mp hs
      obtain rfl : h2 = h' := (Prod.mk.inj he).1
      unfold advance at ha
      split at ha
      · split at ha <;> rw [← Option.some.inj ha] at hf <;> cases hf
      · rename_i slot hphase
        -- The slot the feed is at, or one it has been to.
        have hle : k ≤ slot := by
          split at ha
          · rename_i hlast
            rw [← Option.some.inj ha] at hf
            have hlt : k.val < slot.val + 1 := hf
            exact Fin.le_def.mpr (by omega)
          · rename_i hlast
            exact Fin.le_def.mpr (by have := k.isLt; omega)
        rcases Nat.lt_or_eq_of_le (Fin.le_def.mp hle) with hlt | heq
        · left
          unfold Fed
          rw [hphase]
          exact hlt
        · obtain rfl := Fin.ext heq
          exact .inr ⟨htasks, hphase, nowUs, rfl⟩
      · rw [← Option.some.inj ha] at hf
        cases hf
      · split at ha <;> rw [← Option.some.inj ha] at hf <;> cases hf
      · split at ha <;> rw [← Option.some.inj ha] at hf <;> cases hf
      · cases ha
      · cases ha
  | wake nowMs =>
    rw [step] at hs
    split at hs
    · rw [← (Prod.mk.inj (Option.some.inj hs)).1] at hf
      unfold wake at hf
      split at hf
      · exact absurd hf (Nat.not_lt_zero _)
      · split at hf
        · cases hf
        · exact absurd hf (Nat.not_lt_zero _)
    · cases hs
  | rx =>
    obtain ⟨h2, ha, he⟩ := Option.map_eq_some_iff.mp hs
    obtain rfl : h2 = h' := (Prod.mk.inj he).1
    refine .inl (same ?_)
    unfold rxAdvance at ha
    split at ha
    · rw [← Option.some.inj ha]
    · split at ha <;> rw [← Option.some.inj ha]
    · cases ha
    · cases ha
  | rxTimeout =>
    rw [step] at hs
    split at hs
    · exact .inl (same (by rw [← (Prod.mk.inj (Option.some.inj hs)).1]))
    · cases hs
  | audio encoded =>
    obtain ⟨h2, ha, he⟩ := Option.map_eq_some_iff.mp hs
    obtain rfl : h2 = h' := (Prod.mk.inj he).1
    obtain ⟨⟨emitted, pipeline⟩, _, rfl⟩ := Option.map_eq_some_iff.mp ha
    exact .inl (same rfl)
  | tx =>
    rw [step, txAdvance] at hs
    refine .inl (same ?_)
    split at hs
    · rw [← (Prod.mk.inj (Option.some.inj hs)).1]
    · split at hs <;> rw [← (Prod.mk.inj (Option.some.inj hs)).1]
    · split at hs <;> rw [← (Prod.mk.inj (Option.some.inj hs)).1]
    · cases hs
  | shutdown => exact .inl (same (by rw [← (Prod.mk.inj (Option.some.inj hs)).1]))

theorem setClient_lastRxUs (shared : HostShared) (i : Fin maxClients) (stream : StreamShared)
    (k : Fin maxClients) : ((shared.setClient i stream).clients k).lastRxUs =
      if k = i then stream.lastRxUs else (shared.clients k).lastRxUs := by
  show (Function.update shared.clients i stream k).lastRxUs = _
  rw [Function.update_apply]
  split <;> rfl

theorem measure_lastRxUs (h : Host) (ev : CtrlEvent) (k : Fin maxClients) :
    ((h.measure ev).clients k).lastRxUs = (h.shared.clients k).lastRxUs := by
  unfold measure
  split
  · rename_i slot _ _
    rw [setClient_lastRxUs]
    split
    · rename_i hk
      rw [hk]
    · rfl
  · rfl

/-- Only `ClientJoined` sets the time of a slot back. -/
theorem perform_lastRxUs (h : Host) (nowUs : Nat) (task : HostTask) (k : Fin maxClients) :
    ((h.perform nowUs task).1.shared.clients k).lastRxUs = (h.shared.clients k).lastRxUs ∨
      ∃ name, task = .act (.clientJoined (senderId k) name) := by
  cases task with
  | act action =>
    cases action with
    | send dst control => cases control <;> exact .inl rfl
    | clientJoined sender name =>
      rw [perform]
      cases hslot : slotOfSender sender with
      | none => exact .inl rfl
      | some slot =>
        by_cases hk : k = slot
        · obtain rfl := slotOfSender_eq_some.mp hslot
          exact .inr ⟨name, by rw [hk]⟩
        · left
          refine (setClient_lastRxUs _ _ _ k).trans ?_
          rw [if_neg hk]
    | clientLeft sender reason =>
      left
      rw [perform]
      cases hslot : slotOfSender sender with
      | none => rfl
      | some slot =>
        refine (setClient_lastRxUs _ _ _ k).trans ?_
        split
        · rename_i hk
          rw [hk]
        · rfl
  | ping d | keepalive d | bye d => exact .inl rfl

/-- A datagram sets the time of the slot whose id it has, if it comes from where the thread expects that. -/
theorem receive_lastRxUs {h h' : Host} {src : SocketAddr} {bytes : Bytes} {nowUs t3Us : Nat}
    {out : Option Outgoing} (hr : h.receive src bytes nowUs t3Us = some (h', out)) (k : Fin maxClients) :
    (h'.shared.clients k).lastRxUs = (h.shared.clients k).lastRxUs ∨
      (h'.shared.clients k).lastRxUs = nowUs ∧ h.rx.clientAddrs k = some src ∧
        ∃ header payload, Parses bytes header payload ∧ header.senderId = senderId k := by
  have set : ∀ {header payload} {slot : Fin maxClients} (stream : StreamShared), stream.lastRxUs = nowUs →
      Parses bytes header payload → slotOfSender header.senderId = some slot →
      h.rx.clientAddrs slot = some src →
      ((h.shared.setClient slot stream).clients k).lastRxUs = (h.shared.clients k).lastRxUs ∨
        ((h.shared.setClient slot stream).clients k).lastRxUs = nowUs ∧ h.rx.clientAddrs k = some src ∧
          ∃ header payload, Parses bytes header payload ∧ header.senderId = senderId k := by
    intro header payload slot stream hstream hp hslot hsrc
    rw [setClient_lastRxUs]
    split
    · rename_i hk
      subst hk
      exact .inr ⟨hstream, hsrc, header, payload, hp, slotOfSender_eq_some.mp hslot⟩
    · exact .inl rfl
  unfold receive at hr
  split at hr
  · obtain ⟨rfl, -⟩ := Prod.mk.inj (Option.some.inj hr)
    unfold routeHost
    split
    · exact .inl rfl
    · rename_i hp
      split
      · exact .inl rfl
      · split
        · exact .inl rfl
        · rename_i hslot
          split
          · exact .inl rfl
          · rename_i hsrc
            exact set _ rfl hp hslot (not_not.mp hsrc)
    · rename_i hp
      dsimp only
      split
      · rename_i hslot
        split
        · rename_i hsrc
          exact set _ rfl hp hslot hsrc
        · exact .inl rfl
      · exact .inl rfl
    · exact .inl rfl
  · cases hr

/-- Where slot `k` stands whose player was heard at `t`. -/
structure Standing (h : Host) (t : Nat) (k : Fin maxClients) (s : HsSlot) : Prop where
  past : t ≤ h.nowMs
  /-- The feed has put it back at most to the datagram that was counted last. -/
  counted : t ≤ s.lastHeardMs ∨ 0 < (h.shared.clients k).lastRxUs
  pending : s.state ≠ .active → t ≤ s.lastHeardMs
  fed : h.Fed k → h.nowMs ≤ t + peerTimeoutMs → h.nowMs ≤ s.lastHeardMs + peerTimeoutMs

/-- A step that leaves the time of the slot alone. -/
theorem Standing.of_same {h h' : Host} {t : Nat} {k : Fin maxClients} {s s' : HsSlot}
    (hst : h.Standing t k s) (hnow : h'.nowMs = h.nowMs) (hheard : s'.lastHeardMs = s.lastHeardMs)
    (hpending : s'.state ≠ .active → s.state ≠ .active)
    (hrx : t ≤ s.lastHeardMs ∨ (h.shared.clients k).lastRxUs ≤ (h'.shared.clients k).lastRxUs)
    (hfed : h'.Fed k → h.Fed k) : h'.Standing t k s' where
  past := hnow ▸ hst.past
  counted := by
    rw [hheard]
    rcases hst.counted with hle | hpos
    · exact .inl hle
    · rcases hrx with hle | hmono
      · exact .inl hle
      · exact .inr (Nat.lt_of_lt_of_le hpos hmono)
  pending hne := by
    rw [hheard]
    exact hst.pending (hpending hne)
  fed hf hle := by
    rw [hnow] at hle ⊢
    rw [hheard]
    exact hst.fed (hfed hf) hle

theorem Standing.of_heard {h : Host} {t : Nat} {k : Fin maxClients} {s : HsSlot} (ht : t ≤ h.nowMs)
    (hheard : s.lastHeardMs = h.nowMs) : h.Standing t k s where
  past := ht
  counted := .inl (hheard ▸ ht)
  pending _ := hheard ▸ ht
  fed _ _ := by omega

/-- The next iteration begins. -/
theorem Standing.of_wake {h h' : Host} {t : Nat} {k : Fin maxClients} {s : HsSlot} (hst : h.Standing t k s)
    (hnow : h.nowMs ≤ h'.nowMs)
    (hrx : (h'.shared.clients k).lastRxUs = (h.shared.clients k).lastRxUs) (hfed : ¬ h'.Fed k) :
    h'.Standing t k s where
  past := hst.past.trans hnow
  counted := hrx ▸ hst.counted
  pending := hst.pending
  fed hf := absurd hf hfed

/-- The feed at the slot. -/
theorem Standing.of_feed {h h' : Host} {t : Nat} {k : Fin maxClients} {s : HsSlot}
    (hst : h.Standing t k s) (hnow : h'.nowMs = h.nowMs) (hshared : h'.shared = h.shared)
    (hrecent : 0 < (h.shared.clients k).lastRxUs → h.nowMs ≤ t + peerTimeoutMs →
      h.nowMs ≤ (h.shared.clients k).lastRxUs / 1000 + peerTimeoutMs) :
    h'.Standing t k (if (h.shared.clients k).lastRxUs > 0 then
      { s with lastHeardMs := (h.shared.clients k).lastRxUs / 1000, state := .active } else s) := by
  by_cases hpos : (h.shared.clients k).lastRxUs > 0
  · rw [if_pos hpos]
    refine ⟨hnow ▸ hst.past, .inr (hshared ▸ hpos), fun hne => absurd rfl hne, fun _ hle => ?_⟩
    rw [hnow] at hle ⊢
    exact hrecent hpos hle
  · rw [if_neg hpos]
    have hle := hst.counted.resolve_right hpos
    refine ⟨hnow ▸ hst.past, .inl hle, hst.pending, fun _ hlate => ?_⟩
    rw [hnow] at hlate ⊢
    omega

theorem heard_wake {g : HostLog} {h h' : Host} {nowMs : Nat} {ev : CtrlEvent}
    {events : List CtrlEvent} (hev : h.events = ev :: events) (k : Fin maxClients) :
    (HostLog.observe g h (.step (.wake nowMs)) h').heard k =
      if h'.hs.clientAddr (senderId k) = some ev.src then some nowMs
      else if h'.hs.clientAddr (senderId k) = h.hs.clientAddr (senderId k) then g.heard k else none := by
  unfold HostLog.observe
  dsimp only
  rw [hev]

theorem heard_quiet {g : HostLog} {h h' : Host} {e : HostEvent}
    (hne : ∀ nowMs ev events, e = .step (.wake nowMs) → h.events ≠ ev :: events)
    (k : Fin maxClients) : (HostLog.observe g h e h').heard k =
      if h'.hs.clientAddr (senderId k) = h.hs.clientAddr (senderId k) then g.heard k else none := by
  unfold HostLog.observe
  dsimp only
  split
  · rename_i nowMs ev events hev
    exact absurd hev (hne nowMs ev events rfl)
  · rfl

section Watched

variable {cfg : HostConfig} {c : Host × HostLog → HostEvent → Prop} {es : List HostEvent}
  {w : Host × HostLog}

/-- What `recv_timeout` hands to the loop, and where the slots stand then. -/
theorem wake_standing {h h' : Host} {nowMs t : Nat} {out : Option Outgoing}
    (hs : h.step (.wake nowMs) = some (h', out)) (hclock : h.nowMs ≤ nowMs) {k : Fin maxClients}
    {s : HsSlot} (hst : h.Standing t k s) : h'.Standing t k s := by
  have hnow : h.nowMs ≤ h'.nowMs := by
    rcases nowMs_step hs with hsame | ⟨nowMs', hl, hnew⟩
    · exact hsame.ge
    · obtain rfl := HostLabel.wake.inj hl
      exact hnew ▸ hclock
  have hfed : h'.Fed k → h.Fed k := by
    intro hf
    rcases fed_step hs hf with hold | ⟨_, _, _, hl⟩
    · exact hold
    · cases hl
  rw [step] at hs
  split at hs
  · rename_i hwait
    refine hst.of_wake hnow ?_ fun hf => ?_
    · rw [← (Prod.mk.inj (Option.some.inj hs)).1]
      unfold wake
      split
      · exact h.measure_lastRxUs _ k
      · split <;> rfl
    · have hold := hfed hf
      unfold Fed at hold
      rw [hwait.2] at hold
      exact hold
  · cases hs

/-- The feed comes to a slot. -/
theorem step_feed {h h' : Host} {nowUs : Nat} {out : Option Outgoing} {slot : Fin maxClients}
    (hs : h.step (.control nowUs) = some (h', out)) (ht : h.tasks = []) (hphase : h.phase = .feed slot) :
    h'.hs = (if (h.shared.clients slot).lastRxUs > 0 then
        h.hs.markHeard (senderId slot) ((h.shared.clients slot).lastRxUs / 1000) else h.hs) ∧
      h'.shared = h.shared ∧ h'.nowMs = h.nowMs := by
  rw [step, ht] at hs
  obtain ⟨h2, ha, he⟩ := Option.map_eq_some_iff.mp hs
  obtain rfl : h2 = h' := (Prod.mk.inj he).1
  unfold advance at ha
  rw [hphase] at ha
  dsimp only at ha
  split at ha <;> rw [← Option.some.inj ha] <;> exact ⟨rfl, rfl, rfl⟩

/-- The slot the feed comes to. -/
theorem step_feed_slot {h h' : Host} {nowUs : Nat} {out : Option Outgoing} {slot : Fin maxClients}
    {s : HsSlot} (hs : h.step (.control nowUs) = some (h', out)) (ht : h.tasks = [])
    (hphase : h.phase = .feed slot) (hslot : h.hs.slots slot = some s) :
    h'.hs.slots slot = some (if (h.shared.clients slot).lastRxUs > 0 then
      { s with lastHeardMs := (h.shared.clients slot).lastRxUs / 1000, state := .active } else s) := by
  rw [(step_feed hs ht hphase).1]
  split
  · rw [markHeard_slots hslot]
    exact Function.update_self slot _ _
  · exact hslot

/-- A step that takes no event leaves a slot where it stands. -/
theorem Move.standing {h h' : Host} {l : HostLabel} {out : Option Outgoing} (hm : Move h l h' out)
    (hs : h.step l = some (h', out)) (hi : h.Inv) (hl : ∀ nowMs, l ≠ .wake nowMs) {t : Nat}
    {k : Fin maxClients} {s s' : HsSlot} (hk : h.hs.slots k = some s) (hk' : h'.hs.slots k = some s')
    (hrecent : (∃ nowUs, l = .control nowUs) → h.tasks = [] → h.phase = .feed k →
      0 < (h.shared.clients k).lastRxUs → h.nowMs ≤ t + peerTimeoutMs →
        h.nowMs ≤ (h.shared.clients k).lastRxUs / 1000 + peerTimeoutMs)
    (hst : h.Standing t k s) : h'.Standing t k s' := by
  by_cases hfeed : h.tasks = [] ∧ h.phase = .feed k ∧ ∃ nowUs, l = .control nowUs
  · obtain ⟨ht, hphase, nowUs, rfl⟩ := hfeed
    obtain ⟨_, hshared, hnow⟩ := step_feed hs ht hphase
    rw [step_feed_slot hs ht hphase hk] at hk'
    rw [← Option.some.inj hk']
    exact hst.of_feed hnow hshared (hrecent ⟨nowUs, rfl⟩ ht hphase)
  have hfed : h'.Fed k → h.Fed k := fun hf => (fed_step hs hf).resolve_right hfeed
  have hnow : h'.nowMs = h.nowMs := by
    rcases nowMs_step hs with hsame | ⟨nowMs, hw, _⟩
    · exact hsame
    · exact absurd hw (hl nowMs)
  have unheard : Unheard h.hs h'.hs →
      (t ≤ s.lastHeardMs ∨ (h.shared.clients k).lastRxUs ≤ (h'.shared.clients k).lastRxUs) →
      h'.Standing t k s' := by
    intro hun hrx
    obtain ⟨s0, hs0, hheard, hpending⟩ := hun k s' hk'
    obtain rfl := Option.some.inj (hk.symm.trans hs0)
    exact hst.of_same hnow hheard hpending hrx hfed
  have calm : ∀ {h1 : Host}, Calm h1 h' → h1.hs = h.hs → h1.shared = h.shared → h'.Standing t k s' := by
    intro h1 hcalm hhs hshared
    refine unheard ?_ (.inr ?_)
    · rw [hcalm.hs, hhs]
      exact Unheard.refl _
    · rw [hcalm.shared, hshared]
  cases hm with
  | sends ht hp =>
    refine unheard ?_ (.inr le_rfl)
    show Unheard h.hs (h.hs.afterSend _ _ _)
    unfold HostHandshake.afterSend
    split
    · exact unheard_welcomeSent _ _ _
    · exact Unheard.refl _
  | @executes nowUs task tasks h' ht hp hsilent he =>
    refine unheard ?_ ?_
    · rw [hsilent.hs]
      exact Unheard.refl _
    · rcases perform_lastRxUs { h with tasks := tasks } nowUs task k with hsame | ⟨name, rfl⟩
      · right
        rw [he, hsame]
      · -- The slot of a player who joins has not been fed.
        left
        obtain ⟨i, e, hid, hslot, hstate⟩ := hi.tasks _ (ht ▸ List.mem_cons_self)
        obtain rfl := senderId_inj hid
        obtain rfl := Option.some.inj (hk.symm.trans hslot)
        exact hst.pending hstate
  | @feeds nowUs slot h' ht hphase ht' hs' hc =>
    have hks : k ≠ slot := fun he => hfeed ⟨ht, he ▸ hphase, nowUs, rfl⟩
    have hsame : h'.hs.slots k = h.hs.slots k := by
      rw [hs']
      split
      · cases hslot : h.hs.slots slot with
        | none => rw [markHeard_none hslot]
        | some e =>
          rw [markHeard_slots hslot]
          exact Function.update_of_ne hks _ _
      · rfl
    rw [hsame, hk] at hk'
    rw [← Option.some.inj hk']
    refine hst.of_same hnow rfl id (.inr ?_) hfed
    rw [hc.shared]
  | ticks ht hphase => exact unheard (unheard_tick _ _) (.inr le_rfl)
  | takes ht hev => exact absurd rfl (hl _)
  | polls ht hc ht' => exact calm hc rfl rfl
  | transmits hring hdst hc ht' => exact calm hc rfl rfl
  | idles hne hc ht' => exact calm hc rfl rfl

/-- Where the slot of a player stands who was heard. -/
theorem Watched.standing (hr : Watched cfg c es w)
    (hc : ∀ w e, c w e → ClockForward w.1 e ∧ RxRecent w e) :
    ∀ k t, w.2.heard k = some t → ∃ s, w.1.hs.slots k = some s ∧ w.1.Standing t k s := by
  refine hr.induction (p := fun h g => ∀ k t, g.heard k = some t →
    ∃ s, h.hs.slots k = some s ∧ h.Standing t k s) (fun k t hk => by cases hk) ?_
  intro h g e h' hcons hp hcond hs k t hk
  obtain ⟨hclock, hrecent⟩ := hc (h, g) e hcond
  -- A slot that stays with its player.
  have kept : h'.hs.clientAddr (senderId k) = h.hs.clientAddr (senderId k) → g.heard k = some t →
      (∀ s s', h.hs.slots k = some s → h'.hs.slots k = some s' → h.Standing t k s →
        h'.Standing t k s') → ∃ s', h'.hs.slots k = some s' ∧ h'.Standing t k s' := by
    intro haddr hold hlater
    obtain ⟨s, hslot, hst⟩ := hp k t hold
    rw [clientAddr_senderId, clientAddr_senderId, addrAt_of_slots hslot] at haddr
    obtain ⟨s', hslot', _⟩ := addrAt_eq_some.mp haddr
    exact ⟨s', hslot', hlater s s' hslot hslot' hst⟩
  have unheard : (∀ nowMs ev events, e = .step (.wake nowMs) → h.events ≠ ev :: events) →
      (h'.hs.clientAddr (senderId k) = h.hs.clientAddr (senderId k)) ∧ g.heard k = some t := by
    intro hne
    rw [heard_quiet hne] at hk
    split at hk
    · rename_i haddr
      exact ⟨haddr, hk⟩
    · cases hk
  -- Neither the machine nor the loop has gone on.
  have same : (∀ nowMs ev events, e = .step (.wake nowMs) → h.events ≠ ev :: events) →
      h'.hs = h.hs → h'.nowMs = h.nowMs → h'.phase = h.phase →
      (h.shared.clients k).lastRxUs ≤ (h'.shared.clients k).lastRxUs →
      ∃ s', h'.hs.slots k = some s' ∧ h'.Standing t k s' := by
    intro hne hhs hnow hphase hrx
    obtain ⟨haddr, hold⟩ := unheard hne
    refine kept haddr hold fun s s' hslot hslot' hst => ?_
    rw [hhs, hslot] at hslot'
    rw [← Option.some.inj hslot']
    exact hst.of_same hnow rfl id (.inr hrx) (fed_congr hphase k).mp
  cases e with
  | step l =>
    obtain ⟨⟨h2, out⟩, hl, rfl⟩ := Option.map_eq_some_iff.mp hs
    have hm := move_of_step hl
    by_cases hw : ∃ nowMs, l = .wake nowMs
    · obtain ⟨nowMs, rfl⟩ := hw
      cases hev : h.events with
      | nil =>
        have hne : ∀ nowMs' ev events, HostEvent.step (.wake nowMs) = .step (.wake nowMs') →
            h.events ≠ ev :: events := fun _ _ _ _ he => by rw [hev] at he; cases he
        obtain ⟨haddr, hold⟩ := unheard hne
        refine kept haddr hold fun s s' hslot hslot' hst => ?_
        have hhs : h2.hs = h.hs := by
          rw [step] at hl
          split at hl
          · rw [← (Prod.mk.inj (Option.some.inj hl)).1]
            unfold wake
            rw [hev]
            dsimp only
            split <;> rfl
          · cases hl
        rw [hhs, hslot] at hslot'
        rw [← Option.some.inj hslot']
        exact wake_standing hl hclock hst
      | cons ev events =>
        obtain ⟨hnow2, hhs⟩ : h2.nowMs = nowMs ∧ h2.hs = (dispatch h.hs h.shared.sessionId ev nowMs).2 := by
          rw [step] at hl
          split at hl
          · rw [← (Prod.mk.inj (Option.some.inj hl)).1]
            unfold wake
            rw [hev]
            exact ⟨rfl, rfl⟩
          · cases hl
        obtain ⟨hby, hsrc⟩ := dispatch_heardBy hcons.inv.distinct h.shared.sessionId ev nowMs
        rw [← hhs] at hby hsrc
        rw [heard_wake hev] at hk
        split at hk
        · rename_i haddr
          obtain rfl := Option.some.inj hk
          rw [clientAddr_senderId] at haddr
          obtain ⟨s', hslot', haddr'⟩ := addrAt_eq_some.mp haddr
          exact ⟨s', hslot', .of_heard hnow2.ge ((hsrc k s' hslot' haddr').trans hnow2.symm)⟩
        · split at hk
          · rename_i haddr
            refine kept haddr hk fun s s' hslot hslot' hst => ?_
            rcases hby k s' hslot' with hnew | hold
            · exact .of_heard (hnow2 ▸ hst.past.trans hclock) (hnew.trans hnow2.symm)
            · obtain rfl := Option.some.inj (hslot.symm.trans hold)
              exact wake_standing hl hclock hst
          · cases hk
    · have hw : ∀ nowMs, l ≠ .wake nowMs := fun nowMs he => hw ⟨nowMs, he⟩
      obtain ⟨haddr, hold⟩ := unheard fun nowMs ev events he =>
        absurd (HostEvent.step.inj he) (hw nowMs)
      refine kept haddr hold fun s s' hslot hslot' hst => ?_
      refine hm.standing hl hcons.inv hw hslot hslot' ?_ hst
      rintro ⟨nowUs, rfl⟩ ht hphase hpos hle
      exact rxRecent_feed hrecent ht hphase hpos hold hle
  | recv src bytes nowUs t3Us =>
    obtain ⟨⟨h2, out⟩, hrecv, rfl⟩ := Option.map_eq_some_iff.mp hs
    have hrec := receive_spec hrecv
    refine same (fun _ _ _ he => by cases he) hrec.hs hrec.nowMs hrec.phase ?_
    rcases receive_lastRxUs hrecv k with hsame | ⟨hnew, -⟩
    · rw [hsame]
    · rw [hnew]
      exact hclock k
  | read slot op =>
    rw [← Option.some.inj hs] at same ⊢
    refine same (fun _ _ _ he => by cases he) rfl rfl rfl ?_
    rw [setClient_lastRxUs]
    split
    · rename_i hk'
      rw [hk']
    · exact le_rfl
  | mix player setting =>
    rw [← Option.some.inj hs] at same ⊢
    refine same (fun _ _ _ he => by cases he) rfl rfl rfl ?_
    cases setting <;> exact le_rfl

/-- A player that was heard at `t` and has the slot since is not dropped for silence by a tick at most
`peerTimeoutMs` after `t`, in a run in which the clock goes forward and whatever the receive thread has
counted for a slot is recent when the feed comes there in that time. -/
theorem heard_not_dropped (hr : Watched cfg (fun w e => ClockForward w.1 e ∧ RxRecent w e) es w)
    {k : Fin maxClients} {t : Nat} (hk : w.2.heard k = some t) (hphase : w.1.phase = .tick)
    (ht : w.1.nowMs ≤ t + peerTimeoutMs) :
    .clientLeft (senderId k) .timeout ∉ (w.1.hs.tick w.1.nowMs).1 := by
  intro hleft
  obtain ⟨s, hslot, hst⟩ := hr.standing (fun _ _ h => h) k t hk
  obtain ⟨s', hslot', hlate⟩ := tick_timeout hleft
  obtain rfl := Option.some.inj (hslot.symm.trans hslot')
  have hfed : w.1.Fed k := by
    unfold Fed
    rw [hphase]
    trivial
  have := hst.fed hfed ht
  omega

end Watched

/-- What the receive thread has counted is too old: the player is dropped in the same iteration, even if an
event of it was processed just now. -/
theorem stale_feed_drops {h h' : Host} {nowUs : Nat} {out : Option Outgoing} {k : Fin maxClients}
    {s : HsSlot} (hs : h.step (.control nowUs) = some (h', out)) (ht : h.tasks = [])
    (hphase : h.phase = .feed k) (hslot : h.hs.slots k = some s)
    (hrx : 0 < (h.shared.clients k).lastRxUs)
    (hlate : (h.shared.clients k).lastRxUs / 1000 + peerTimeoutMs < h.nowMs) :
    .clientLeft (senderId k) .timeout ∈ (h'.hs.tick h'.nowMs).1 := by
  have hslot' := step_feed_slot hs ht hphase hslot
  rw [if_pos hrx] at hslot'
  rw [(step_feed hs ht hphase).2.2]
  refine List.mem_append_left _ (List.mem_append_left _ (List.mem_filterMap.mpr ⟨k, List.mem_finRange k, ?_⟩))
  dsimp only
  rw [hslot', Option.map_some, tickSlot, if_pos (by dsimp only; omega)]

instance (h : Host) (e : HostEvent) : Decidable (ClockForward h e) :=
  match e with
  | .step (.wake nowMs) => inferInstanceAs (Decidable (h.nowMs ≤ nowMs))
  | .recv _ _ nowUs _ => inferInstanceAs (Decidable (∀ k, (h.shared.clients k).lastRxUs ≤ nowUs))
  | .step (.control _) | .step .rx | .step .rxTimeout | .step (.audio _) | .step .tx | .step .shutdown |
    .read .. | .mix .. => inferInstanceAs (Decidable True)

instance (h : Host) (e : HostEvent) : Decidable (RxInPast h e) :=
  match e with
  | .step (.wake nowMs) =>
    inferInstanceAs (Decidable (∀ k, (h.shared.clients k).lastRxUs / 1000 ≤ nowMs))
  | .step (.control _) | .step .rx | .step .rxTimeout | .step (.audio _) | .step .tx | .step .shutdown |
    .recv .. | .read .. | .mix .. => inferInstanceAs (Decidable True)

instance (w : Host × HostLog) (e : HostEvent) : Decidable (RxRecent w e) := by
  unfold RxRecent
  split
  · split <;> infer_instance
  · infer_instance

/-- A player sends a frame at 20 ms and a KEEPALIVE that is there at 29 ms and is processed at 30 ms. The
feed puts the slot back to 29 ms, and the player is still there at a tick at 5029 ms. -/
theorem heard_not_dropped_keepalive : ∃ es w,
    Watched Scenario.cfg.host (fun w e => ClockForward w.1 e ∧ RxRecent w e) es w ∧
    w.2.heard 0 = some 30 ∧ w.1.nowMs = 5029 ∧
    ((w.1.hs.slots 0).any fun s => s.lastHeardMs = 29) = true ∧
    .clientLeft (senderId 0) .timeout ∉ (w.1.hs.tick w.1.nowMs).1 := by
  obtain ⟨w, hr, hw⟩ := Watched.of_test Scenario.cfg.host
    (Scenario.strangerIn ++ Scenario.recv Scenario.strangerAddr (Scenario.audio 9 [1, 2]) 20000 ++
      Scenario.recv Scenario.strangerAddr (stampedDatagram 2 .keepalive Scenario.cfg.host.sessionId 1) 29000 ++
      Scenario.handles 0 30 ++ .step (.wake 5029) :: Scenario.control 4 5029000)
    (fun w e => decide (ClockForward w.1 e ∧ RxRecent w e))
    (fun w => w.2.heard 0 = some 30 && w.1.phase = .tick && w.1.nowMs = 5029 &&
      (w.1.hs.slots 0).any fun s => s.lastHeardMs = 29)
    (fun _ _ he => of_decide_eq_true he) (by decide +kernel)
  simp only [Bool.and_eq_true, decide_eq_true_eq] at hw
  obtain ⟨⟨⟨hheard, hphase⟩, hnow⟩, hback⟩ := hw
  exact ⟨_, w, hr, hheard, hnow, hback,
    heard_not_dropped hr hheard hphase (by rw [hnow]; decide)⟩

/-- A player that was silent for almost five seconds says HELLO again. The feed puts it back to its last
frame, and the tick in the same iteration drops it. -/
theorem heard_and_dropped : ¬ ∀ es w,
    Watched Scenario.cfg.host (fun w e => ClockForward w.1 e ∧ RxInPast w.1 e) es w →
    ∀ k t, w.2.heard k = some t → w.1.tasks = [] → w.1.phase = .tick →
      w.1.nowMs ≤ t + peerTimeoutMs →
        .clientLeft (senderId k) .timeout ∉ (w.1.hs.tick w.1.nowMs).1 := by
  intro hall
  obtain ⟨w, hr, hw⟩ := Watched.of_test Scenario.cfg.host
    (Scenario.strangerIn ++ Scenario.recv Scenario.strangerAddr (Scenario.audio 9 [1, 2]) 20000 ++
      Scenario.handles 0 30 ++ Scenario.handles 2 5010 ++
      Scenario.recv Scenario.strangerAddr (Scenario.strangerHello Scenario.roomCode) 5024000 ++
      [.step (.wake 5025)] ++ Scenario.control 5 5025000)
    (fun w e => decide (ClockForward w.1 e ∧ RxInPast w.1 e))
    (fun w => w.2.heard 0 = some 5025 && w.1.tasks.isEmpty && w.1.phase = .tick &&
      w.1.nowMs = 5025 && (w.1.hs.tick w.1.nowMs).1.contains (.clientLeft (senderId 0) .timeout))
    (fun _ _ he => of_decide_eq_true he) (by decide +kernel)
  simp only [Bool.and_eq_true, decide_eq_true_eq, List.isEmpty_iff] at hw
  obtain ⟨⟨⟨⟨hheard, htasks⟩, hphase⟩, hnow⟩, hleft⟩ := hw
  exact hall _ w hr 0 5025 hheard htasks hphase (by rw [hnow]; decide) (List.contains_iff_mem.mp hleft)

end Host

end OnlineJam
