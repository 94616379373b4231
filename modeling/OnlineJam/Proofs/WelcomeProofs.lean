import OnlineJam.Proofs.MembershipProofs
import OnlineJam.Protocol.WelcomeLog

/-!
# Proofs: the acknowledgement of a WELCOME

A Pending slot remembers the number on the WELCOME that was transmitted last, and only that one. So
`on_ack` activates the slot exactly when the ACK is for the last transmission, or the slot is Active
already. The host's control loop calls `mark_heard` first, whatever the ACK is for.
-/

namespace OnlineJam

namespace HostHandshake

theorem admits_iff {hs : HostHandshake} {hello : Control} :
    hs.Admits hello ↔ hello.greets hs.roomCode = true := by
  constructor
  · rintro ⟨name, codecMask, frameMask, rfl⟩
    simp [Control.greets]
  · intro h
    cases hello with
    | hello protoVersion code name codecMask frameMask =>
      simp only [Control.greets, Bool.and_eq_true, decide_eq_true_eq] at h
      exact ⟨name, codecMask, frameMask, by rw [h.1, h.2]⟩
    | _ => cases h

/-! ## What is remembered -/

/-- A Pending slot remembers the last of the numbers that were transmitted to its address. -/
def Remembers (hs : HostHandshake) (sent : SocketAddr → List UInt16) : Prop :=
  ∀ k s ws lastTxMs tries, hs.slots k = some s → s.state = .pending ws lastTxMs tries →
    ws = (sent s.addr).getLast?

/-- A slot that is Pending afterwards was so before, with the same number. -/
def KeepsSeq (hs hs' : HostHandshake) : Prop :=
  ∀ k s' ws lastTxMs' tries', hs'.slots k = some s' → s'.state = .pending ws lastTxMs' tries' →
    ∃ s lastTxMs tries, hs.slots k = some s ∧ s.addr = s'.addr ∧ s.state = .pending ws lastTxMs tries

theorem Remembers.keeps {hs hs' : HostHandshake} {sent : SocketAddr → List UInt16}
    (h : hs.Remembers sent) (hk : KeepsSeq hs hs') : hs'.Remembers sent := by
  intro k s' ws lastTxMs' tries' hs' hstate
  obtain ⟨s, lastTxMs, tries, hold, haddr, hpending⟩ := hk k s' ws lastTxMs' tries' hs' hstate
  rw [← haddr]
  exact h k s ws lastTxMs tries hold hpending

theorem keepsSeq_onAck (hs : HostHandshake) (addr : SocketAddr) (ackedSeq : UInt16) (nowMs : Nat) :
    KeepsSeq hs (hs.onAck addr ackedSeq nowMs).2 := by
  intro k s' ws lastTxMs' tries' hk hstate
  obtain ⟨s, hs', rfl⟩ := Option.map_eq_some_iff.mp hk
  by_cases haddr : s.addr = addr
  · rw [if_pos haddr] at hstate ⊢
    split at hstate
    · rename_i ws₀ lastTxMs tries hpending
      dsimp only at hstate
      split at hstate
      · cases hstate
      · cases hstate
        exact ⟨s, _, _, hs', rfl, hpending⟩
    · exact ⟨s, _, _, hs', rfl, hstate⟩
  · rw [if_neg haddr] at hstate ⊢
    exact ⟨s, _, _, hs', rfl, hstate⟩

theorem keepsSeq_markHeard (hs : HostHandshake) (id : UInt16) (nowMs : Nat) :
    KeepsSeq hs (hs.markHeard id nowMs) := by
  intro k s' ws lastTxMs' tries' hk hstate
  rw [markHeard] at hk
  split at hk
  · rename_i slot _
    split at hk
    · have hk : Function.update hs.slots slot _ k = some s' := hk
      rw [Function.update_apply] at hk
      split at hk
      · rw [← Option.some.inj hk] at hstate
        cases hstate
      · exact ⟨s', _, _, hk, rfl, hstate⟩
    · exact ⟨s', _, _, hk, rfl, hstate⟩
  · exact ⟨s', _, _, hk, rfl, hstate⟩

theorem keepsSeq_removeWhere (hs : HostHandshake) (pred : HsSlot → Bool) (reason : LeaveReason) :
    KeepsSeq hs (hs.removeWhere pred reason).2 := by
  intro k s' ws lastTxMs' tries' hk hstate
  have hk : (if (hs.slots k).any pred then none else hs.slots k) = some s' := hk
  split at hk
  · cases hk
  · exact ⟨s', _, _, hk, rfl, hstate⟩

/-- What a clock tick leaves of a slot: the slot itself, or one more try. -/
theorem tickEntry_cases {nowMs : Nat} {s s' : HsSlot} (h : tickEntry nowMs s = some s') :
    s' = s ∨ ∃ ws lastTxMs tries, s.state = .pending ws lastTxMs tries ∧
      s' = { s with state := .pending ws nowMs (tries + 1) } := by
  unfold tickEntry at h
  cases ho : tickSlot nowMs s with
  | left reason =>
    rw [ho] at h
    cases h
  | kept =>
    rw [ho] at h
    exact .inl (Option.some.inj h).symm
  | resend r =>
    rw [ho] at h
    obtain rfl := Option.some.inj h
    unfold tickSlot at ho
    split at ho
    · cases ho
    · split at ho
      · rename_i ws lastTxMs tries hstate
        split at ho
        · split at ho
          · cases ho
          · exact .inr ⟨ws, lastTxMs, tries, hstate, (TickOutcome.resend.inj ho).symm⟩
        · cases ho
      · cases ho

theorem keepsSeq_tick (hs : HostHandshake) (nowMs : Nat) : KeepsSeq hs (hs.tick nowMs).2 := by
  intro k s' ws lastTxMs' tries' hk hstate
  obtain ⟨s, hs', ht⟩ := Option.bind_eq_some_iff.mp
    (show (hs.slots k).bind (tickEntry nowMs) = some s' from hk)
  rcases tickEntry_cases ht with rfl | ⟨ws₀, lastTxMs, tries, hpending, rfl⟩
  · exact ⟨s', _, _, hs', rfl, hstate⟩
  · cases hstate
    exact ⟨s, _, _, hs', rfl, hpending⟩

theorem Remembers.onHello {hs : HostHandshake} {sent sent' : SocketAddr → List UInt16}
    (h : hs.Remembers sent) (hd : hs.Distinct) {addr : SocketAddr} {hello : Control} (nowMs : Nat)
    (hgreets : hs.Admits hello → sent' addr = [])
    (hother : ∀ a, a = addr ∧ hs.Admits hello ∨ sent' a = sent a) :
    (hs.onHello addr hello nowMs).2.Remembers sent' := by
  -- Slots of other addresses, or a HELLO that is turned away.
  have same : (∀ k, hs.addrAt k = some addr → ¬ hs.Admits hello) → hs.Remembers sent' := by
    intro hno k s ws lastTxMs tries hk hstate
    rcases hother s.addr with ⟨he, hadm⟩ | he
    · exact absurd hadm (hno k (by rw [addrAt_of_slots hk, he]))
    · rw [he]
      exact h k s ws lastTxMs tries hk hstate
  have fresh : ∀ {slot : Fin maxClients} {name : String}, hs.Admits hello →
      (∀ i, hs.addrAt i = some addr → i = slot) →
        (hs.setSlot slot (some (newcomer addr name nowMs))).Remembers sent' := by
    intro slot name hadm honly k s ws lastTxMs tries hk hstate
    have hk : Function.update hs.slots slot _ k = some s := hk
    rw [Function.update_apply] at hk
    split at hk
    · obtain rfl := Option.some.inj hk
      cases hstate
      exact (congrArg List.getLast? (hgreets hadm)).symm
    · rename_i hne
      rcases hother s.addr with ⟨he, -⟩ | he
      · exact absurd (honly k (by rw [addrAt_of_slots hk, he])) hne
      · rw [he]
        exact h k s ws lastTxMs tries hk hstate
  have hans := onHello_answers hs addr hello nowMs
  revert hans
  generalize hs.onHello addr hello nowMs = r
  intro hans
  cases hans with
  | ignores hne =>
    refine same fun k _ => ?_
    rintro ⟨_, _, _, rfl⟩
    exact hne rfl
  | refuses hr hno => exact same fun k _ => hno
  | full hnew hfull => exact same fun k hk => absurd hk (hnew k)
  | again hello_eq haddr => exact fresh ⟨_, _, _, hello_eq⟩ fun i hi => hd i _ addr hi haddr
  | joins hello_eq hnew hfree => exact fresh ⟨_, _, _, hello_eq⟩ fun i hi => absurd hi (hnew i)

theorem Remembers.welcomeSent {hs : HostHandshake} {sent : SocketAddr → List UInt16}
    (h : hs.Remembers sent) (dst : SocketAddr) (seq : UInt16) :
    (hs.welcomeSent dst seq).Remembers fun a => if dst = a then sent a ++ [seq] else sent a := by
  intro k s' ws lastTxMs tries hk hstate
  obtain ⟨s, hs', rfl⟩ := Option.map_eq_some_iff.mp hk
  by_cases haddr : s.addr = dst
  · rw [if_pos haddr] at hstate ⊢
    split at hstate
    · rename_i hpending
      cases hstate
      dsimp only
      rw [if_pos haddr.symm, List.getLast?_concat]
    · rename_i hactive
      rw [hactive] at hstate
      cases hstate
  · rw [if_neg haddr] at hstate ⊢
    dsimp only
    rw [if_neg (Ne.symm haddr)]
    exact h k s ws lastTxMs tries hs' hstate

end HostHandshake

open HostHandshake

theorem sinceHello_snoc (roomCode : Vector UInt8 roomCodeLen) (a : SocketAddr) (ops : List HostOp)
    (op : HostOp) : sinceHello roomCode a (ops ++ [op]) = match op with
      | .welcomeSent dst seq =>
        if dst = a then sinceHello roomCode a ops ++ [seq] else sinceHello roomCode a ops
      | op => if op.greets roomCode a then [] else sinceHello roomCode a ops := by
  rw [sinceHello, List.foldl_append]
  rfl

theorem HostOp.exec_roomCode (hs : HostHandshake) (op : HostOp) :
    (op.exec hs).2.roomCode = hs.roomCode := HostOp.moves_exec.roomCode

theorem HostHistory.run_roomCode (hs : HostHandshake) (ops : List HostOp) :
    (run hs ops).hs.roomCode = hs.roomCode :=
  run_induction (p := fun r => r.hs.roomCode = hs.roomCode) rfl
    (fun r op hr => (op.exec_roomCode r.hs).trans hr) ops

/-- Over every run, what a Pending slot remembers is the last transmission to its address. -/
theorem HostHistory.remembers_run {hs : HostHandshake} (hfree : ∀ k, hs.slots k = none)
    (ops : List HostOp) :
    (run hs ops).hs.Remembers fun a => sinceHello hs.roomCode a ops := by
  induction ops using List.reverseRecOn with
  | nil =>
    intro k s ws lastTxMs tries hk
    rw [show (run hs []).hs.slots k = hs.slots k from rfl, hfree] at hk
    cases hk
  | append_singleton ops op ih =>
    have hd : (run hs ops).hs.Distinct := distinct_run (fun i j a hi => by
      rw [addrAt, hfree] at hi
      cases hi) ops
    have hcode := run_roomCode hs ops
    rw [run_snoc]
    show (op.exec (run hs ops).hs).2.Remembers _
    simp only [sinceHello_snoc]
    -- Only a HELLO and a transmission change what has been sent.
    cases op with
    | onHello addr hello nowMs =>
      refine ih.onHello hd nowMs (fun hadm => ?_) fun a => ?_
      · rw [admits_iff, hcode] at hadm
        simp [HostOp.greets, hadm]
      · rw [admits_iff, hcode]
        by_cases hg : hello.greets hs.roomCode = true
        · by_cases ha : a = addr
          · exact .inl ⟨ha, hg⟩
          · right
            simp [HostOp.greets, Ne.symm ha]
        · right
          simp [HostOp.greets, hg]
    | welcomeSent dst seq => exact ih.welcomeSent dst seq
    | onAck addr ackedSeq nowMs => exact ih.keeps (keepsSeq_onAck _ _ _ _)
    | markHeard id nowMs => exact ih.keeps (keepsSeq_markHeard _ _ _)
    | onBye addr => exact ih.keeps (keepsSeq_removeWhere _ _ _)
    | tick nowMs => exact ih.keeps (keepsSeq_tick _ _)

/-! ## Once Active -/

namespace HostHandshake

/-- If `a` has a slot, it is Active. -/
def Settled (hs : HostHandshake) (a : SocketAddr) : Prop :=
  ∀ k s, hs.slots k = some s → s.addr = a → s.state = .active

theorem Settled.mapSlots {hs : HostHandshake} {a : SocketAddr} (h : hs.Settled a) {f : HsSlot → HsSlot}
    (haddr : ∀ s, (f s).addr = s.addr) (hf : ∀ s, s.addr = a → s.state = .active → (f s).state = .active) :
    (hs.mapSlots f).Settled a := by
  intro k s' hk ha
  obtain ⟨s, hs', rfl⟩ := Option.map_eq_some_iff.mp hk
  rw [haddr] at ha
  exact hf s ha (h k s hs' ha)

theorem Settled.setSlot {hs : HostHandshake} {a : SocketAddr} (h : hs.Settled a) {k : Fin maxClients}
    {s : HsSlot} (hs' : s.addr = a → s.state = .active) : (hs.setSlot k (some s)).Settled a := by
  intro i s' hi ha
  have hi : Function.update hs.slots k (some s) i = some s' := hi
  rw [Function.update_apply] at hi
  split at hi
  · obtain rfl := Option.some.inj hi
    exact hs' ha
  · exact h i s' hi ha

/-- Only a HELLO of the client itself makes its slot Pending. -/
theorem Settled.exec {hs : HostHandshake} {a : SocketAddr} (h : hs.Settled a) {op : HostOp}
    (hop : op.greets hs.roomCode a = false) : (op.exec hs).2.Settled a := by
  cases op with
  | onHello addr hello nowMs =>
    have fresh : ∀ {slot : Fin maxClients} {name : String}, hs.Admits hello →
        (hs.setSlot slot (some (newcomer addr name nowMs))).Settled a := by
      intro slot name hadm
      rw [admits_iff] at hadm
      refine h.setSlot fun ha => ?_
      have ha : addr = a := ha
      rw [HostOp.greets, hadm, Bool.and_true, decide_eq_false_iff_not] at hop
      exact absurd ha hop
    have hans := onHello_answers hs addr hello nowMs
    show (hs.onHello addr hello nowMs).2.Settled a
    revert hans
    generalize hs.onHello addr hello nowMs = r
    intro hans
    cases hans with
    | ignores hne => exact h
    | refuses hr hno => exact h
    | full hnew hfull => exact h
    | again hello_eq haddr => exact fresh ⟨_, _, _, hello_eq⟩
    | joins hello_eq hnew hfree => exact fresh ⟨_, _, _, hello_eq⟩
  | welcomeSent dst seq =>
    refine h.mapSlots (fun s => ?_) fun s _ hactive => ?_
    · split
      · split <;> rfl
      · rfl
    · rw [hactive]
      simp [hactive]
  | onAck addr ackedSeq nowMs =>
    refine h.mapSlots (fun s => ?_) fun s _ hactive => ?_
    · split
      · split <;> rfl
      · rfl
    · rw [hactive]
      split
      · rfl
      · exact hactive
  | markHeard id nowMs =>
    show (hs.markHeard id nowMs).Settled a
    rw [markHeard]
    split
    · split
      · exact h.setSlot fun _ => rfl
      · exact h
    · exact h
  | onBye addr =>
    intro k s hk ha
    have hk : (if (hs.slots k).any (fun s => decide (s.addr = addr)) then none else hs.slots k) =
      some s := hk
    split at hk
    · cases hk
    · exact h k s hk ha
  | tick nowMs =>
    intro k s' hk ha
    obtain ⟨s, hs', ht⟩ := Option.bind_eq_some_iff.mp
      (show (hs.slots k).bind (tickEntry nowMs) = some s' from hk)
    rw [tickEntry_addr ht] at ha
    have hactive := h k s hs' ha
    rcases tickEntry_cases ht with rfl | ⟨ws, lastTxMs, tries, hpending, -⟩
    · exact hactive
    · rw [hactive] at hpending
      cases hpending

theorem Settled.run {hs : HostHandshake} {a : SocketAddr} (h : hs.Settled a) {ops : List HostOp}
    (hops : ∀ op ∈ ops, op.greets hs.roomCode a = false) : (HostHistory.run hs ops).hs.Settled a := by
  induction ops using List.reverseRecOn with
  | nil => exact h
  | append_singleton ops op ih =>
    rw [HostHistory.run_snoc]
    refine (ih fun op' hop' => hops op' (List.mem_append_left _ hop')).exec ?_
    rw [HostHistory.run_roomCode]
    exact hops op (List.mem_append_right _ (List.mem_singleton_self op))

/-- A slot that is Active is neither sent a WELCOME nor given up for want of an ACK. -/
theorem tickSlot_active (nowMs : Nat) {s : HsSlot} (h : s.state = .active) :
    tickSlot nowMs s = .left .timeout ∨ tickSlot nowMs s = .kept := by
  unfold tickSlot
  rw [h]
  split
  · exact .inl rfl
  · exact .inr rfl

theorem welcomes_broadcastRoster {hs : HostHandshake} {except : Option SocketAddr} {act : HostAction}
    (h : act ∈ hs.broadcastRoster except) (a : SocketAddr) : act.welcomes a = false := by
  obtain ⟨dst, rfl⟩ := mem_broadcastRoster h
  rfl

theorem Settled.not_welcomed {hs : HostHandshake} {a : SocketAddr} (h : hs.Settled a) (nowMs : Nat) :
    ∀ act ∈ (hs.tick nowMs).1, act.welcomes a = false := by
  intro act hact
  rcases mem_tick hact with ⟨_, _, _, _, _, rfl⟩ | ⟨i, s, s', hs', ht, _, rfl⟩ | hact
  · rfl
  · have hentry : tickEntry nowMs s = some s' := by rw [tickEntry, ht]
    have haddr := tickEntry_addr hentry
    show decide (s'.addr = a) = false
    rw [decide_eq_false_iff_not, haddr]
    intro ha
    rcases tickSlot_active nowMs (h i s hs' ha) with he | he <;> rw [he] at ht <;> cases ht
  · exact welcomes_broadcastRoster hact a

theorem Settled.not_unacked {hs : HostHandshake} {a : SocketAddr} (h : hs.Settled a) (nowMs : Nat)
    {k : Fin maxClients} (hk : hs.addrAt k = some a) :
    .clientLeft (senderId k) .welcomeUnacked ∉ (hs.tick nowMs).1 := by
  intro hact
  rcases mem_tick hact with ⟨i, s, reason, hs', ht, he⟩ | ⟨_, _, _, _, _, _, he⟩ | hact
  · obtain ⟨hid, rfl⟩ := HostAction.clientLeft.inj he
    obtain rfl := senderId_inj hid
    rw [addrAt_of_slots hs'] at hk
    rcases tickSlot_active nowMs (h k s hs' (Option.some.inj hk)) with he | he <;>
      rw [he] at ht <;> cases ht
  · cases he
  · obtain ⟨dst, hdst⟩ := mem_broadcastRoster hact
    cases hdst

theorem Settled.activated {hs : HostHandshake} {a : SocketAddr} (h : hs.Settled a) {k : Fin maxClients}
    (hk : hs.addrAt k = some a) : hs.Activated a where
  active := by
    obtain ⟨s, hs', ha⟩ := addrAt_eq_some.mp hk
    exact ⟨k, s, hs', ha, h k s hs' ha⟩
  stays := fun ops hops => h.run hops
  welcomed := fun ops hops nowMs => (h.run hops).not_welcomed nowMs
  acked := fun ops hops nowMs k hk => by
    rw [clientAddr_senderId] at hk
    exact (h.run hops).not_unacked nowMs hk

end HostHandshake

/-! ## Main result -/

/-- In every run, an ACK from a client with a slot leaves it Active for good exactly when it was Active
already or the ACK is for the last of the WELCOMEs transmitted to it since its latest HELLO. -/
theorem ack_activates_iff (roomCode : Vector UInt8 roomCodeLen) (sessionId : UInt16)
    (params : SessionParams) (hostName : String) (ops : List HostOp) (a : SocketAddr) (seq : UInt16)
    (nowMs : Nat) (hocc : ∃ k, (HostHistory.run (new roomCode sessionId params hostName) ops).hs.clientAddr
      (senderId k) = some a) :
    ((HostHistory.run (new roomCode sessionId params hostName) ops).hs.onAck a seq nowMs).2.Activated a ↔
      (∃ k s, (HostHistory.run (new roomCode sessionId params hostName) ops).hs.slots k = some s ∧
        s.addr = a ∧ s.state = .active) ∨
      (sinceHello roomCode a ops).getLast? = some seq := by
  have hfree : ∀ k, (new roomCode sessionId params hostName).slots k = none := fun _ => rfl
  have hrem := HostHistory.remembers_run hfree ops
  have hd : (HostHistory.run (new roomCode sessionId params hostName) ops).hs.Distinct :=
    HostHistory.distinct_run (fun i j a hi => by cases hi) ops
  generalize (HostHistory.run (new roomCode sessionId params hostName) ops).hs = hs at hocc hrem hd ⊢
  obtain ⟨k, hk⟩ := hocc
  rw [clientAddr_senderId] at hk
  obtain ⟨s, hs', ha⟩ := addrAt_eq_some.mp hk
  have hkeeps := keeps_onAck hs a seq nowMs
  constructor
  · rintro ⟨⟨i, s', hi, ha', hactive⟩, -, -, -⟩
    obtain ⟨s₀, hs₀, rfl⟩ := Option.map_eq_some_iff.mp hi
    have haddr : s₀.addr = a := by
      by_contra hne
      rw [if_neg hne] at ha'
      exact hne ha'
    rw [if_pos haddr] at hactive
    cases hstate : s₀.state with
    | active => exact .inl ⟨i, s₀, hs₀, haddr, hstate⟩
    | pending ws lastTxMs tries =>
      right
      have hws := hrem i s₀ ws lastTxMs tries hs₀ hstate
      rw [haddr] at hws
      rw [hstate] at hactive
      cases ws with
      | none => cases hactive
      | some ws =>
        dsimp only at hactive
        split at hactive
        · rename_i he
          rw [← he]
          exact hws.symm
        · cases hactive
  · intro hcond
    refine Settled.activated (k := k) (fun i s' hi ha' => ?_) ((hkeeps.addrAt k).trans hk)
    obtain rfl : i = k := hd i k a (by rw [← hkeeps.addrAt, addrAt_of_slots hi, ha']) hk
    have hi : (hs.slots i).map _ = some s' := hi
    rw [hs', Option.map_some, if_pos ha] at hi
    obtain rfl := Option.some.inj hi
    rcases hcond with ⟨j, s₁, hs₁, ha₁, hactive⟩ | hlast
    · obtain rfl : j = i := hd j i a (by rw [addrAt_of_slots hs₁, ha₁]) hk
      obtain rfl : s₁ = s := Option.some.inj (hs₁.symm.trans hs')
      rw [hactive]
    · cases hstate : s.state with
      | active => rfl
      | pending ws lastTxMs tries =>
        have hws := hrem i s ws lastTxMs tries hs' hstate
        rw [ha, show (new roomCode sessionId params hostName).roomCode = roomCode from rfl, hlast] at hws
        subst hws
        dsimp only
        rw [if_pos rfl]

/-! ## A slow acknowledgement -/

/-- `JAMJAM`. -/
def jamRoom : Vector UInt8 roomCodeLen := ⟨#[74, 65, 77, 74, 65, 77], by decide⟩

def jamHost : HostHandshake :=
  new jamRoom 7 { sampleRate := 48000, frameSamples := 120, codec := .pcmS16 } "host"

/-- The WELCOME goes out with number 7, and again with number 8 a retry later. -/
def retried : List HostOp :=
  [.onHello (.v4 1 5000) (.hello protocolVersion jamRoom "ann" 7 3) 0, .welcomeSent (.v4 1 5000) 7,
    .tick 250, .welcomeSent (.v4 1 5000) 8]

/-- The ACK for the second transmission counts. -/
theorem ack_activates_last :
    ((HostHistory.run jamHost retried).hs.onAck (.v4 1 5000) 8 400).2.Activated (.v4 1 5000) :=
  (ack_activates_iff jamRoom 7 { sampleRate := 48000, frameSamples := 120, codec := .pcmS16 } "host"
    retried (.v4 1 5000) 8 400 ⟨0, by decide +kernel⟩).mpr (Or.inr (by decide +kernel))

/-- The ACK for the first one does not: the next tick sends a third WELCOME. -/
theorem ack_overtaken : (7 : UInt16) ∈ sinceHello jamRoom (.v4 1 5000) retried ∧
    (HostHistory.run jamHost retried).hs.clientAddr (senderId 0) = some (.v4 1 5000) ∧
    ¬ ∀ (ops : List HostOp) (a : SocketAddr) (seq : UInt16) (nowMs : Nat),
      (∃ k, (HostHistory.run jamHost ops).hs.clientAddr (senderId k) = some a) →
        seq ∈ sinceHello jamRoom a ops →
          ((HostHistory.run jamHost ops).hs.onAck a seq nowMs).2.Activated a := by
  have hsent : (7 : UInt16) ∈ sinceHello jamRoom (.v4 1 5000) retried := by decide +kernel
  have hocc : (HostHistory.run jamHost retried).hs.clientAddr (senderId 0) = some (.v4 1 5000) := by
    decide +kernel
  refine ⟨hsent, hocc, fun hall => ?_⟩
  have hact := hall retried (.v4 1 5000) 7 400 ⟨0, hocc⟩ hsent
  have htick : ∃ act ∈ (((HostHistory.run jamHost retried).hs.onAck (.v4 1 5000) 7 400).2.tick 500).1,
      act.welcomes (.v4 1 5000) = true := by decide +kernel
  obtain ⟨act, hmem, hwelcomes⟩ := htick
  have hnone := hact.welcomed [] (fun op hop => by cases hop) 500 act hmem
  rw [hwelcomes] at hnone
  cases hnone

end OnlineJam
