import OnlineJam.Protocol.Handshake

/-!
# Host handshake: who has which slot

The addresses of the slots under each operation of the host's machine, and what the actions it returns
promise about them.
-/

namespace OnlineJam

/-- The player in a slot. -/
def HsSlot.player (s : HsSlot) : SocketAddr × String := (s.addr, s.name)

namespace HostHandshake

/-- The address that has slot `i`. -/
def addrAt (hs : HostHandshake) (i : Fin maxClients) : Option SocketAddr :=
  (hs.slots i).map HsSlot.addr

/-- No address has two slots. -/
def Distinct (hs : HostHandshake) : Prop :=
  ∀ i j a, hs.addrAt i = some a → hs.addrAt j = some a → i = j

theorem addrAt_of_slots {hs : HostHandshake} {i : Fin maxClients} {s : HsSlot}
    (h : hs.slots i = some s) : hs.addrAt i = some s.addr := by
  rw [addrAt, h, Option.map_some]

theorem addrAt_eq_some {hs : HostHandshake} {i : Fin maxClients} {a : SocketAddr} :
    hs.addrAt i = some a ↔ ∃ s, hs.slots i = some s ∧ s.addr = a := Option.map_eq_some_iff

theorem addrAt_eq_none {hs : HostHandshake} {i : Fin maxClients} :
    hs.addrAt i = none ↔ hs.slots i = none := Option.map_eq_none_iff

/-! ## Looking up an address -/

theorem slotForAddr_test (hs : HostHandshake) (a : SocketAddr) (i : Fin maxClients) :
    (match hs.slots i with
      | some s => decide (s.addr = a)
      | none => false) = true ↔ hs.addrAt i = some a := by
  rw [addrAt]
  cases hs.slots i with
  | none => simp
  | some s => simp

theorem addrAt_slotForAddr {hs : HostHandshake} {a : SocketAddr} {i : Fin maxClients}
    (h : hs.slotForAddr a = some i) : hs.addrAt i = some a := by
  have ht := List.find?_some (p := fun i => match hs.slots i with
    | some s => decide (s.addr = a)
    | none => false) h
  exact (slotForAddr_test hs a i).mp ht

theorem slotForAddr_eq_none {hs : HostHandshake} {a : SocketAddr} :
    hs.slotForAddr a = none ↔ ∀ i, hs.addrAt i ≠ some a := by
  rw [slotForAddr, List.find?_eq_none]
  constructor
  · intro h i hi
    exact h i (List.mem_finRange i) ((slotForAddr_test hs a i).mpr hi)
  · intro h i _ hi
    exact h i ((slotForAddr_test hs a i).mp hi)

theorem Distinct.slotForAddr {hs : HostHandshake} (hd : hs.Distinct) {a : SocketAddr}
    {i : Fin maxClients} (h : hs.addrAt i = some a) : hs.slotForAddr a = some i := by
  cases hf : hs.slotForAddr a with
  | none => exact absurd h (slotForAddr_eq_none.mp hf i)
  | some j => rw [hd j i a (addrAt_slotForAddr hf) h]

theorem senderForAddr_eq_some {hs : HostHandshake} {a : SocketAddr} {id : UInt16}
    (h : hs.senderForAddr a = some id) : ∃ i, hs.addrAt i = some a ∧ id = senderId i := by
  obtain ⟨i, hi, rfl⟩ := Option.map_eq_some_iff.mp h
  exact ⟨i, addrAt_slotForAddr hi, rfl⟩

theorem Distinct.senderForAddr {hs : HostHandshake} (hd : hs.Distinct) {a : SocketAddr}
    {i : Fin maxClients} (h : hs.addrAt i = some a) : hs.senderForAddr a = some (senderId i) := by
  rw [HostHandshake.senderForAddr, hd.slotForAddr h, Option.map_some]

theorem senderForAddr_isSome {hs : HostHandshake} {a : SocketAddr} :
    (hs.senderForAddr a).isSome = true ↔ ∃ i, hs.addrAt i = some a := by
  rw [HostHandshake.senderForAddr, Option.isSome_map]
  constructor
  · intro h
    obtain ⟨i, hi⟩ := Option.isSome_iff_exists.mp h
    exact ⟨i, addrAt_slotForAddr hi⟩
  · rintro ⟨i, hi⟩
    by_contra hn
    exact slotForAddr_eq_none.mp (Option.not_isSome_iff_eq_none.mp hn) i hi

theorem senderId_inj {i j : Fin maxClients} (h : senderId i = senderId j) : i = j := by
  revert i j
  decide

theorem slotOfSender_senderId (i : Fin maxClients) : slotOfSender (senderId i) = some i := by
  revert i
  decide

theorem slotOfSender_eq_some {id : UInt16} {i : Fin maxClients} :
    slotOfSender id = some i ↔ id = senderId i := by
  refine ⟨fun h => ?_, fun h => h ▸ slotOfSender_senderId i⟩
  unfold slotOfSender at h
  split at h
  · rename_i hid
    rw [← Option.some.inj h]
    refine UInt16.toNat_inj.mp ?_
    have hlt := hid.2
    simp only [senderId, UInt16.toNat_ofNat', maxClients] at hlt ⊢
    omega
  · cases h

theorem clientAddr_eq (hs : HostHandshake) (sender : UInt16) :
    hs.clientAddr sender = (slotOfSender sender).bind hs.addrAt := by
  rw [clientAddr, Option.bind_eq_bind]
  congr 1
  funext i
  rw [addrAt]
  cases hs.slots i <;> rfl

theorem clientAddr_senderId (hs : HostHandshake) (i : Fin maxClients) :
    hs.clientAddr (senderId i) = hs.addrAt i := by
  rw [clientAddr_eq, slotOfSender_senderId, Option.bind_some]

/-! ## What an operation does to the addresses -/

/-- The configuration and the addresses stay. -/
structure Keeps (hs hs' : HostHandshake) : Prop where
  roomCode : hs'.roomCode = hs.roomCode
  sessionId : hs'.sessionId = hs.sessionId
  addrAt : ∀ i, hs'.addrAt i = hs.addrAt i

/-- The configuration stays, and either slots are freed or a free one goes to an address that had
none and that `new` allows. -/
structure Moves (new : SocketAddr → Prop) (hs hs' : HostHandshake) : Prop where
  roomCode : hs'.roomCode = hs.roomCode
  sessionId : hs'.sessionId = hs.sessionId
  addrAt : (∀ i, hs'.addrAt i = hs.addrAt i ∨ hs'.addrAt i = none) ∨
    ∃ k a, new a ∧ hs.addrAt k = none ∧ (∀ i, hs.addrAt i ≠ some a) ∧
      ∀ i, hs'.addrAt i = if i = k then some a else hs.addrAt i

theorem Keeps.refl (hs : HostHandshake) : Keeps hs hs := ⟨rfl, rfl, fun _ => rfl⟩

theorem Keeps.moves {new : SocketAddr → Prop} {hs hs' : HostHandshake} (h : Keeps hs hs') :
    Moves new hs hs' :=
  ⟨h.roomCode, h.sessionId, .inl fun i => .inl (h.addrAt i)⟩

theorem Moves.mono {new new' : SocketAddr → Prop} {hs hs' : HostHandshake} (h : Moves new hs hs')
    (hn : ∀ a, new a → new' a) : Moves new' hs hs' := by
  refine ⟨h.roomCode, h.sessionId, ?_⟩
  rcases h.addrAt with hf | ⟨k, a, ha, ht⟩
  · exact .inl hf
  · exact .inr ⟨k, a, hn a ha, ht⟩

theorem Keeps.trans_moves {new : SocketAddr → Prop} {hs hs' hs'' : HostHandshake}
    (h : Keeps hs hs') (h' : Moves new hs' hs'') : Moves new hs hs'' where
  roomCode := h'.roomCode.trans h.roomCode
  sessionId := h'.sessionId.trans h.sessionId
  addrAt := by
    have hm := h'.addrAt
    rwa [show hs'.addrAt = hs.addrAt from funext h.addrAt] at hm

theorem Keeps.distinct {hs hs' : HostHandshake} (h : Keeps hs hs') (hd : hs.Distinct) :
    hs'.Distinct := by
  intro i j a hi hj
  rw [h.addrAt] at hi hj
  exact hd i j a hi hj

/-- An address that has a slot had it before or is new. -/
theorem Moves.addrAt_cases {new : SocketAddr → Prop} {hs hs' : HostHandshake}
    (h : Moves new hs hs') {i : Fin maxClients} {a : SocketAddr} (hi : hs'.addrAt i = some a) :
    hs.addrAt i = some a ∨ new a := by
  rcases h.addrAt with hf | ⟨k, b, hnew, _, _, ht⟩
  · rcases hf i with hs | hs
    · exact .inl (hs ▸ hi)
    · rw [hs] at hi
      cases hi
  · rw [ht] at hi
    split at hi
    · exact .inr (Option.some.inj hi ▸ hnew)
    · exact .inl hi

theorem Moves.distinct {new : SocketAddr → Prop} {hs hs' : HostHandshake} (h : Moves new hs hs')
    (hd : hs.Distinct) : hs'.Distinct := by
  intro i j a hi hj
  rcases h.addrAt with hf | ⟨k, b, _, _, hb, ht⟩
  · have old : ∀ i, hs'.addrAt i = some a → hs.addrAt i = some a := by
      intro i hi
      rcases hf i with hs | hs
      · rwa [hs] at hi
      · rw [hs] at hi
        cases hi
    exact hd i j a (old i hi) (old j hj)
  · rw [ht] at hi hj
    by_cases hik : i = k <;> by_cases hjk : j = k
    · rw [hik, hjk]
    · rw [if_pos hik] at hi
      rw [if_neg hjk] at hj
      exact absurd (hj.trans hi.symm) (hb j)
    · rw [if_neg hik] at hi
      rw [if_pos hjk] at hj
      exact absurd (hi.trans hj.symm) (hb i)
    · rw [if_neg hik] at hi
      rw [if_neg hjk] at hj
      exact hd i j a hi hj

/-- An address that keeps having a slot keeps its slot. -/
theorem Moves.addrAt_of_held {new : SocketAddr → Prop} {hs hs' : HostHandshake}
    (h : Moves new hs hs') (hd : hs.Distinct) {a : SocketAddr} {i : Fin maxClients} (hi : hs.addrAt i = some a)
    (hheld : (hs'.senderForAddr a).isSome = true) : hs'.addrAt i = some a := by
  obtain ⟨j, hj⟩ := senderForAddr_isSome.mp hheld
  rcases h.addrAt with hf | ⟨k, b, _, hk, hb, ht⟩
  · rcases hf j with hs | hs
    · rw [hs] at hj
      rwa [hd i j a hi hj, hs]
    · rw [hs] at hj
      cases hj
  · rw [ht, if_neg]
    · exact hi
    · rintro rfl
      rw [hk] at hi
      cases hi

/-! ## The operations -/

theorem addrAt_setSlot (hs : HostHandshake) (k : Fin maxClients) (s : HsSlot) (i : Fin maxClients) :
    (hs.setSlot k (some s)).addrAt i = if i = k then some s.addr else hs.addrAt i := by
  show (Function.update hs.slots k (some s) i).map HsSlot.addr = _
  rw [Function.update_apply]
  split <;> rfl

theorem keeps_setSlot {hs : HostHandshake} {k : Fin maxClients} {s : HsSlot}
    (h : hs.addrAt k = some s.addr) : Keeps hs (hs.setSlot k (some s)) := by
  refine ⟨rfl, rfl, fun i => ?_⟩
  rw [addrAt_setSlot]
  split
  · rename_i hik
    rw [hik, h]
  · rfl

theorem keeps_mapSlots (hs : HostHandshake) {f : HsSlot → HsSlot} (hf : ∀ s, (f s).addr = s.addr) :
    Keeps hs (hs.mapSlots f) := by
  refine ⟨rfl, rfl, fun i => ?_⟩
  rw [addrAt, mapSlots, Option.map_map, addrAt]
  congr 1
  exact funext hf

theorem keeps_markHeard (hs : HostHandshake) (sender : UInt16) (nowMs : Nat) :
    Keeps hs (hs.markHeard sender nowMs) := by
  rw [markHeard]
  split
  · split
    · rename_i h
      have haddr := addrAt_of_slots h
      exact keeps_setSlot haddr
    · exact Keeps.refl hs
  · exact Keeps.refl hs

theorem keeps_welcomeSent (hs : HostHandshake) (dst : SocketAddr) (seq : UInt16) :
    Keeps hs (hs.welcomeSent dst seq) := by
  refine keeps_mapSlots hs fun s => ?_
  split
  · split <;> rfl
  · rfl

theorem keeps_onAck (hs : HostHandshake) (addr : SocketAddr) (ackedSeq : UInt16) (nowMs : Nat) :
    Keeps hs (hs.onAck addr ackedSeq nowMs).2 := by
  refine keeps_mapSlots hs fun s => ?_
  split
  · split <;> rfl
  · rfl

/-- A clock tick changes at most the state of a slot that it leaves. -/
theorem tickEntry_eq {nowMs : Nat} {s s' : HsSlot} (h : tickEntry nowMs s = some s') :
    s' = { s with state := s'.state } := by
  rw [tickEntry] at h
  cases ho : tickSlot nowMs s with
  | left reason =>
    rw [ho] at h
    cases h
  | kept =>
    rw [ho] at h
    rw [← Option.some.inj h]
  | resend r =>
    rw [ho] at h
    rw [← Option.some.inj h]
    unfold tickSlot at ho
    split at ho
    · cases ho
    · split at ho
      · split at ho
        · split at ho
          · cases ho
          · rw [← TickOutcome.resend.inj ho]
        · cases ho
      · cases ho

theorem tickEntry_player {nowMs : Nat} {s s' : HsSlot} (h : tickEntry nowMs s = some s') :
    s'.player = s.player := by
  rw [tickEntry_eq h]
  rfl

theorem tickEntry_addr {nowMs : Nat} {s s' : HsSlot} (h : tickEntry nowMs s = some s') :
    s'.addr = s.addr := congrArg Prod.fst (tickEntry_player h)

/-- Why a clock tick takes a slot away, if it does. -/
def tickReason (nowMs : Nat) (s : HsSlot) : Option LeaveReason :=
  match tickSlot nowMs s with
  | .left reason => some reason
  | _ => none

/-- The slot after one more try, if a clock tick makes one. -/
def tickRetry (nowMs : Nat) (s : HsSlot) : Option HsSlot :=
  match tickSlot nowMs s with
  | .resend s' => some s'
  | _ => none

/-- Players who leave, then WELCOMEs, then the roster if it has changed. -/
theorem tick_actions (hs : HostHandshake) (nowMs : Nat) : ∃ rosters,
    (hs.tick nowMs).1 =
      (indices.filterMap fun i =>
        ((hs.slots i).bind (tickReason nowMs)).map (HostAction.clientLeft (senderId i))) ++
      (indices.filterMap fun i =>
        ((hs.slots i).bind (tickRetry nowMs)).map fun s => .send s.addr ((hs.tick nowMs).2.welcomeFor i)) ++
      rosters ∧ ∀ a ∈ rosters, a ∈ (hs.tick nowMs).2.broadcastRoster none := by
  refine ⟨_, congrArg₂ _ (congrArg₂ _ ?_ ?_) rfl, fun a ha => ?_⟩
  · refine List.filterMap_congr fun i _ => ?_
    dsimp only
    cases hs.slots i with
    | none => rfl
    | some s =>
      simp only [Option.map_some, Option.bind_some, tickReason]
      cases tickSlot nowMs s <;> rfl
  · refine List.filterMap_congr fun i _ => ?_
    dsimp only
    cases hs.slots i with
    | none => rfl
    | some s =>
      simp only [Option.map_some, Option.bind_some, tickRetry]
      cases tickSlot nowMs s <;> rfl
  · split at ha
    · cases ha
    · exact ha

/-- What a removal can return. -/
theorem mem_removeWhere {hs : HostHandshake} {pred : HsSlot → Bool} {reason : LeaveReason}
    {act : HostAction} (h : act ∈ (hs.removeWhere pred reason).1) :
    (∃ i s, hs.slots i = some s ∧ pred s = true ∧ act = .clientLeft (senderId i) reason) ∨
      act ∈ (hs.removeWhere pred reason).2.broadcastRoster none := by
  have left : act ∈ ((indices.filter fun i => (hs.slots i).any pred).map
      fun i => HostAction.clientLeft (senderId i) reason) →
        ∃ i s, hs.slots i = some s ∧ pred s = true ∧ act = .clientLeft (senderId i) reason := by
    intro h
    obtain ⟨i, hi, rfl⟩ := List.mem_map.mp h
    obtain ⟨s, hs', hpred⟩ := (Option.any_eq_true _ _).mp (List.mem_filter.mp hi).2
    exact ⟨i, s, hs', hpred, rfl⟩
  unfold removeWhere at h
  simp only at h
  split at h
  · exact .inl (left h)
  · rcases List.mem_append.mp h with h | h
    · exact .inl (left h)
    · exact .inr h

/-- What a clock tick can return. -/
theorem mem_tick {hs : HostHandshake} {nowMs : Nat} {act : HostAction} (h : act ∈ (hs.tick nowMs).1) :
    (∃ i s reason, hs.slots i = some s ∧ tickSlot nowMs s = .left reason ∧
      act = .clientLeft (senderId i) reason) ∨
    (∃ i s s', hs.slots i = some s ∧ tickSlot nowMs s = .resend s' ∧
      (hs.tick nowMs).2.slots i = some s' ∧ act = .send s'.addr ((hs.tick nowMs).2.welcomeFor i)) ∨
    act ∈ (hs.tick nowMs).2.broadcastRoster none := by
  obtain ⟨rosters, hactions, hrosters⟩ := hs.tick_actions nowMs
  rw [hactions, List.mem_append, List.mem_append] at h
  rcases h with (h | h) | h
  · obtain ⟨i, _, hi⟩ := List.mem_filterMap.mp h
    obtain ⟨reason, hreason, rfl⟩ := Option.map_eq_some_iff.mp hi
    obtain ⟨s, hs', hwhy⟩ := Option.bind_eq_some_iff.mp hreason
    unfold tickReason at hwhy
    split at hwhy
    · rename_i ho
      obtain rfl := Option.some.inj hwhy
      exact .inl ⟨i, s, _, hs', ho, rfl⟩
    · cases hwhy
  · obtain ⟨i, _, hi⟩ := List.mem_filterMap.mp h
    obtain ⟨s', hretry, rfl⟩ := Option.map_eq_some_iff.mp hi
    obtain ⟨s, hs', hwhy⟩ := Option.bind_eq_some_iff.mp hretry
    unfold tickRetry at hwhy
    split at hwhy
    · rename_i ho
      obtain rfl := Option.some.inj hwhy
      refine .inr (.inl ⟨i, s, _, hs', ho, ?_, rfl⟩)
      show (hs.slots i).bind (tickEntry nowMs) = some _
      rw [hs', Option.bind_some, tickEntry, ho]
    · cases hwhy
  · exact .inr (.inr (hrosters act h))

theorem moves_tick {new : SocketAddr → Prop} (hs : HostHandshake) (nowMs : Nat) :
    Moves new hs (hs.tick nowMs).2 := by
  refine ⟨rfl, rfl, .inl fun i => ?_⟩
  show ((hs.slots i).bind (tickEntry nowMs)).map HsSlot.addr = _ ∨
    ((hs.slots i).bind (tickEntry nowMs)).map HsSlot.addr = none
  rw [addrAt]
  cases hs.slots i with
  | none => exact .inl rfl
  | some s =>
    rw [Option.bind_some]
    cases ht : tickEntry nowMs s with
    | none => exact .inr rfl
    | some s' =>
      left
      rw [Option.map_some, Option.map_some, tickEntry_addr ht]

theorem moves_removeWhere {new : SocketAddr → Prop} (hs : HostHandshake) (pred : HsSlot → Bool)
    (reason : LeaveReason) : Moves new hs (hs.removeWhere pred reason).2 := by
  refine ⟨rfl, rfl, .inl fun i => ?_⟩
  show (if (hs.slots i).any pred then none else hs.slots i).map HsSlot.addr = _ ∨
    (if (hs.slots i).any pred then none else hs.slots i).map HsSlot.addr = none
  split
  · exact .inr rfl
  · exact .inl rfl

/-! ## What the actions promise -/

/-- What is true of an action while it waits to be executed: a WELCOME or a ROSTER goes to the holder
of a slot, a WELCOME names that slot, a player who joins is still to acknowledge. -/
def Vouches (hs : HostHandshake) : HostAction → Prop
  | .send dst control =>
    match control with
    | .welcome id sessionId _ _ _ roster =>
      (∃ i, hs.addrAt i = some dst ∧ id = senderId i) ∧ sessionId = hs.sessionId ∧
        roster.length ≤ maxClients + 1
    | .roster players => (∃ i, hs.addrAt i = some dst) ∧ players.length ≤ maxClients + 1
    | .deny _ => True
    | _ => False
  | .clientJoined sender _ => ∃ i s, sender = senderId i ∧ hs.slots i = some s ∧ s.state ≠ .active
  | .clientLeft sender _ => ∃ i, sender = senderId i

theorem roster_length_le (hs : HostHandshake) : hs.roster.length ≤ maxClients + 1 := by
  have h := List.length_filterMap_le
    (fun i => (hs.slots i).map fun s => ({ id := senderId i, name := s.name } : PlayerInfo)) indices
  rw [roster, List.length_cons]
  rw [List.length_finRange] at h
  omega

theorem vouches_welcomeFor {hs : HostHandshake} {i : Fin maxClients} {a : SocketAddr}
    (h : hs.addrAt i = some a) : hs.Vouches (.send a (hs.welcomeFor i)) :=
  ⟨⟨i, h, rfl⟩, rfl, hs.roster_length_le⟩

theorem vouches_broadcastRoster (hs : HostHandshake) (except : Option SocketAddr) :
    ∀ a ∈ hs.broadcastRoster except, hs.Vouches a := by
  intro a ha
  obtain ⟨i, _, hi⟩ := List.mem_filterMap.mp ha
  obtain ⟨s, hs', hsend⟩ := Option.bind_eq_some_iff.mp hi
  split at hsend
  · rw [← Option.some.inj hsend]
    exact ⟨⟨i, addrAt_of_slots hs'⟩, hs.roster_length_le⟩
  · cases hsend

theorem vouches_removeWhere (hs : HostHandshake) (pred : HsSlot → Bool) (reason : LeaveReason) :
    ∀ a ∈ (hs.removeWhere pred reason).1, (hs.removeWhere pred reason).2.Vouches a := by
  intro a ha
  rcases mem_removeWhere ha with ⟨i, _, _, _, rfl⟩ | ha
  · exact ⟨i, rfl⟩
  · exact vouches_broadcastRoster _ _ a ha

theorem vouches_tick (hs : HostHandshake) (nowMs : Nat) :
    ∀ a ∈ (hs.tick nowMs).1, (hs.tick nowMs).2.Vouches a := by
  intro a ha
  rcases mem_tick ha with ⟨i, _, reason, _, _, rfl⟩ | ⟨i, _, s', _, _, hs', rfl⟩ | ha
  · exact ⟨i, rfl⟩
  · exact vouches_welcomeFor (addrAt_of_slots hs')
  · exact vouches_broadcastRoster _ _ a ha

/-- A HELLO of the right version with the right room code. -/
def Admits (hs : HostHandshake) (control : Control) : Prop :=
  ∃ name codecMask frameMask,
    control = .hello protocolVersion hs.roomCode name codecMask frameMask

/-- A slot just given to a player, or given again. -/
def newcomer (addr : SocketAddr) (name : String) (nowMs : Nat) : HsSlot :=
  { addr := addr, name := name, state := .pending none nowMs 1, lastHeardMs := nowMs }

/-- What a HELLO can lead to. -/
inductive Answers (hs : HostHandshake) (addr : SocketAddr) (hello : Control) (nowMs : Nat) :
    List HostAction × HostHandshake → Prop
  | ignores (hne : hello.packetType ≠ .hello) : Answers hs addr hello nowMs ([], hs)
  | refuses {reason : DenyReason} (hr : reason ≠ .roomFull) (hno : ¬ hs.Admits hello) :
    Answers hs addr hello nowMs ([.send addr (.deny reason)], hs)
  /-- A retry, or the player starts again. -/
  | again {slot : Fin maxClients} {name : String} {codecMask frameMask : UInt8}
      (hello_eq : hello = .hello protocolVersion hs.roomCode name codecMask frameMask)
      (haddr : hs.addrAt slot = some addr) :
    Answers hs addr hello nowMs
      ([.send addr ((hs.setSlot slot (some (newcomer addr name nowMs))).welcomeFor slot)],
        hs.setSlot slot (some (newcomer addr name nowMs)))
  | full (hnew : ∀ i, hs.addrAt i ≠ some addr) (hfull : ∀ i, hs.slots i ≠ none) :
    Answers hs addr hello nowMs ([.send addr (.deny .roomFull)], hs)
  /-- A new player gets the first free slot. -/
  | joins {slot : Fin maxClients} {name : String} {codecMask frameMask : UInt8}
      (hello_eq : hello = .hello protocolVersion hs.roomCode name codecMask frameMask)
      (hnew : ∀ i, hs.addrAt i ≠ some addr) (hfree : hs.slots slot = none) :
    Answers hs addr hello nowMs
      (.send addr ((hs.setSlot slot (some (newcomer addr name nowMs))).welcomeFor slot) ::
        .clientJoined (senderId slot) name ::
          (hs.setSlot slot (some (newcomer addr name nowMs))).broadcastRoster (some addr),
        hs.setSlot slot (some (newcomer addr name nowMs)))

theorem onHello_answers (hs : HostHandshake) (addr : SocketAddr) (hello : Control) (nowMs : Nat) :
    Answers hs addr hello nowMs (hs.onHello addr hello nowMs) := by
  unfold onHello
  split
  · rename_i protoVersion roomCode name codecMask frameMask
    split
    · rename_i hversion
      refine .refuses (by simp) ?_
      rintro ⟨_, _, _, he⟩
      exact absurd (Control.hello.inj he).1 hversion
    rename_i hversion
    split
    · rename_i hcode
      refine .refuses (by simp) ?_
      rintro ⟨_, _, _, he⟩
      exact absurd (Control.hello.inj he).2.1 hcode
    rename_i hcode
    have hello_eq : Control.hello protoVersion roomCode name codecMask frameMask =
        .hello protocolVersion hs.roomCode name codecMask frameMask := by
      rw [not_not.mp hversion, not_not.mp hcode]
    simp only
    split
    · rename_i slot hslot
      exact .again hello_eq (addrAt_slotForAddr hslot)
    · rename_i hslot
      split
      · rename_i hfull
        refine .full (slotForAddr_eq_none.mp hslot) fun i hi => ?_
        have hsome := List.find?_eq_none.mp hfull i (List.mem_finRange i)
        rw [hi] at hsome
        exact absurd rfl hsome
      · rename_i slot hfree
        refine .joins hello_eq (slotForAddr_eq_none.mp hslot) ?_
        have hnone := List.find?_some hfree
        rwa [Option.isNone_iff_eq_none] at hnone
  · rename_i hne
    refine .ignores fun he => ?_
    cases hello with
    | hello v r n c f => exact hne v r n c f rfl
    | _ => cases he

theorem onHello_spec (hs : HostHandshake) (addr : SocketAddr) (hello : Control) (nowMs : Nat) :
    Moves (fun a => a = addr ∧ hs.Admits hello) hs (hs.onHello addr hello nowMs).2 ∧
      ∀ a ∈ (hs.onHello addr hello nowMs).1, (hs.onHello addr hello nowMs).2.Vouches a := by
  have denied : ∀ reason, ∀ a ∈ [HostAction.send addr (.deny reason)], hs.Vouches a := by
    intro reason a ha
    rw [List.mem_singleton.mp ha]
    trivial
  have h := onHello_answers hs addr hello nowMs
  generalize hs.onHello addr hello nowMs = r at h ⊢
  cases h with
  | ignores hne => exact ⟨(Keeps.refl hs).moves, fun a ha => by cases ha⟩
  | refuses hr hno => exact ⟨(Keeps.refl hs).moves, denied _⟩
  | full hnew hfull => exact ⟨(Keeps.refl hs).moves, denied _⟩
  | again hello_eq haddr =>
    refine ⟨(keeps_setSlot haddr).moves, fun a ha => ?_⟩
    rw [List.mem_singleton.mp ha]
    exact vouches_welcomeFor (by rw [addrAt_setSlot, if_pos rfl]; rfl)
  | @joins slot name codecMask frameMask hello_eq hnew hfree =>
    refine ⟨⟨rfl, rfl, .inr ⟨slot, addr, ⟨rfl, name, codecMask, frameMask, hello_eq⟩,
      addrAt_eq_none.mpr hfree, hnew, fun i => addrAt_setSlot _ _ _ _⟩⟩, fun a ha => ?_⟩
    rcases List.mem_cons.mp ha with rfl | ha
    · exact vouches_welcomeFor (by rw [addrAt_setSlot, if_pos rfl]; rfl)
    rcases List.mem_cons.mp ha with rfl | ha
    · exact ⟨slot, _, rfl, Function.update_self slot _ _, by simp [newcomer]⟩
    · exact vouches_broadcastRoster _ _ a ha

theorem mem_broadcastRoster {hs : HostHandshake} {except : Option SocketAddr} {a : HostAction}
    (h : a ∈ hs.broadcastRoster except) : ∃ dst, a = .send dst (.roster hs.roster) := by
  obtain ⟨i, _, hi⟩ := List.mem_filterMap.mp h
  obtain ⟨s, _, hsend⟩ := Option.bind_eq_some_iff.mp hi
  split at hsend
  · exact ⟨s.addr, (Option.some.inj hsend).symm⟩
  · cases hsend

/-- A HELLO announces the slot it gets, or changes no address. -/
theorem onHello_joins (hs : HostHandshake) (addr : SocketAddr) (hello : Control) (nowMs : Nat) :
    ((∀ a ∈ (hs.onHello addr hello nowMs).1, ∃ dst control, a = .send dst control) ∧
      Keeps hs (hs.onHello addr hello nowMs).2) ∨
    ∃ control k name rest, (hs.onHello addr hello nowMs).1 =
        .send addr control :: .clientJoined (senderId k) name :: rest ∧
      (∀ a ∈ rest, ∃ dst control, a = .send dst control) ∧ hs.slots k = none ∧
      ∀ i, (hs.onHello addr hello nowMs).2.addrAt i = if i = k then some addr else hs.addrAt i := by
  have single : ∀ control, ∀ a ∈ [HostAction.send addr control], ∃ dst control, a = .send dst control := by
    intro control a ha
    exact ⟨_, _, List.mem_singleton.mp ha⟩
  have h := onHello_answers hs addr hello nowMs
  generalize hs.onHello addr hello nowMs = r at h ⊢
  cases h with
  | ignores hne => exact .inl ⟨fun a ha => (by cases ha), Keeps.refl hs⟩
  | refuses hr hno => exact .inl ⟨single _, Keeps.refl hs⟩
  | full hnew hfull => exact .inl ⟨single _, Keeps.refl hs⟩
  | again hello_eq haddr => exact .inl ⟨single _, keeps_setSlot haddr⟩
  | joins hello_eq hnew hfree =>
    refine .inr ⟨_, _, _, _, rfl, fun a ha => ?_, hfree, fun i => addrAt_setSlot _ _ _ _⟩
    obtain ⟨dst, rfl⟩ := mem_broadcastRoster ha
    exact ⟨_, _, rfl⟩

/-! ## Active slots -/

/-- A slot that is Active afterwards was Active before, with the same address. -/
def Calms (hs hs' : HostHandshake) : Prop :=
  ∀ k s', hs'.slots k = some s' → s'.state = .active →
    ∃ s, hs.slots k = some s ∧ s.addr = s'.addr ∧ s.state = .active

theorem Calms.refl (hs : HostHandshake) : Calms hs hs := fun _ s hs ha => ⟨s, hs, rfl, ha⟩

theorem calms_welcomeSent (hs : HostHandshake) (dst : SocketAddr) (seq : UInt16) :
    Calms hs (hs.welcomeSent dst seq) := by
  intro k s' hk ha
  obtain ⟨s, hs', rfl⟩ := Option.map_eq_some_iff.mp hk
  refine ⟨s, hs', ?_⟩
  split at ha
  · rename_i haddr
    rw [if_pos haddr]
    split at ha
    · cases ha
    · rename_i hstate
      exact ⟨rfl, hstate⟩
  · rename_i haddr
    rw [if_neg haddr]
    exact ⟨rfl, ha⟩

theorem calms_tick (hs : HostHandshake) (nowMs : Nat) : Calms hs (hs.tick nowMs).2 := by
  intro k s' hk ha
  obtain ⟨s, hs', ht⟩ := Option.bind_eq_some_iff.mp (show (hs.slots k).bind (tickEntry nowMs) = some s' from hk)
  refine ⟨s, hs', (tickEntry_addr ht).symm, ?_⟩
  rw [tickEntry] at ht
  cases ho : tickSlot nowMs s with
  | left reason =>
    rw [ho] at ht
    cases ht
  | kept =>
    rw [ho] at ht
    rw [Option.some.inj ht]
    exact ha
  | resend r =>
    rw [ho] at ht
    rw [← Option.some.inj ht] at ha
    unfold tickSlot at ho
    split at ho
    · cases ho
    · split at ho
      · split at ho
        · split at ho
          · cases ho
          · rw [← TickOutcome.resend.inj ho] at ha
            cases ha
        · cases ho
      · cases ho

/-- A HELLO that is admitted leaves no Active slot to its address. -/
theorem calms_onHello (hs : HostHandshake) (hd : hs.Distinct) (addr : SocketAddr) (hello : Control)
    (nowMs : Nat) : Calms hs (hs.onHello addr hello nowMs).2 ∧
      (hs.Admits hello → ∀ k s', (hs.onHello addr hello nowMs).2.slots k = some s' →
        s'.addr = addr → s'.state ≠ .active) := by
  have pending : ∀ slot (entry : HsSlot), entry.state ≠ .active → Calms hs (hs.setSlot slot (some entry)) := by
    intro slot entry hentry k s' hk ha
    have hk : Function.update hs.slots slot (some entry) k = some s' := hk
    rw [Function.update_apply] at hk
    split at hk
    · rw [← Option.some.inj hk] at ha
      exact absurd ha hentry
    · exact ⟨s', hk, rfl, ha⟩
  have pendingAt : ∀ slot (entry : HsSlot), entry.state ≠ .active →
      (∀ i, hs.addrAt i = some addr → i = slot) → ∀ k s',
        (hs.setSlot slot (some entry)).slots k = some s' → s'.addr = addr → s'.state ≠ .active := by
    intro slot entry hentry honly k s' hk haddr
    have hk : Function.update hs.slots slot (some entry) k = some s' := hk
    rw [Function.update_apply] at hk
    split at hk
    · rw [← Option.some.inj hk]
      exact hentry
    · rename_i hne
      exact absurd (honly k (by rw [addrAt_of_slots hk, haddr])) hne
  have h := onHello_answers hs addr hello nowMs
  generalize hs.onHello addr hello nowMs = r at h ⊢
  cases h with
  | ignores hne =>
    refine ⟨Calms.refl hs, ?_⟩
    rintro ⟨_, _, _, rfl⟩
    exact absurd rfl hne
  | refuses hr hno => exact ⟨Calms.refl hs, fun hadm => absurd hadm hno⟩
  | full hnew hfull =>
    refine ⟨Calms.refl hs, fun _ k s' hk haddr => ?_⟩
    exact absurd (by rw [addrAt_of_slots hk, haddr]) (hnew k)
  | @again slot name _ _ hello_eq haddr =>
    refine ⟨pending _ _ (by simp [newcomer]), fun _ => pendingAt _ _ (by simp [newcomer]) ?_⟩
    exact fun i hi => hd i slot addr hi haddr
  | joins hello_eq hnew hfree =>
    refine ⟨pending _ _ (by simp [newcomer]), fun _ => pendingAt _ _ (by simp [newcomer]) ?_⟩
    exact fun i hi => absurd hi (hnew i)

/-- An ACK makes Active at most the slot of its sender. -/
theorem onAck_active {hs : HostHandshake} {addr : SocketAddr} {ackedSeq : UInt16} {nowMs : Nat}
    {k : Fin maxClients} {s' : HsSlot} (hk : (hs.onAck addr ackedSeq nowMs).2.slots k = some s')
    (ha : s'.state = .active) : s'.addr = addr ∨
      ∃ s, hs.slots k = some s ∧ s.addr = s'.addr ∧ s.state = .active := by
  obtain ⟨s, hs', rfl⟩ := Option.map_eq_some_iff.mp hk
  by_cases haddr : s.addr = addr
  · left
    rw [if_pos haddr]
    split <;> exact haddr
  · right
    rw [if_neg haddr] at ha ⊢
    exact ⟨s, hs', rfl, ha⟩

/-- A sign of life makes Active at most the slot of its sender. -/
theorem markHeard_active {hs : HostHandshake} {i : Fin maxClients} {nowMs : Nat}
    {k : Fin maxClients} {s' : HsSlot} (hk : (hs.markHeard (senderId i) nowMs).slots k = some s')
    (ha : s'.state = .active) : (k = i ∧ hs.addrAt i = some s'.addr) ∨
      ∃ s, hs.slots k = some s ∧ s.addr = s'.addr ∧ s.state = .active := by
  rw [markHeard, slotOfSender_senderId] at hk
  dsimp only at hk
  split at hk
  · rename_i s hs'
    have hk : Function.update hs.slots i _ k = some s' := hk
    rw [Function.update_apply] at hk
    split at hk
    · rename_i hki
      rw [← Option.some.inj hk]
      have haddr := addrAt_of_slots hs'
      exact .inl ⟨hki, haddr⟩
    · exact .inr ⟨s', hk, rfl, ha⟩
  · exact .inr ⟨s', hk, rfl, ha⟩

/-! ## Denials -/

theorem deny_not_mem_broadcastRoster (hs : HostHandshake) (except : Option SocketAddr)
    (dst : SocketAddr) (reason : DenyReason) :
    .send dst (.deny reason) ∉ hs.broadcastRoster except := by
  intro hmem
  obtain ⟨d, hd⟩ := mem_broadcastRoster hmem
  cases hd

theorem deny_not_mem_removeWhere (hs : HostHandshake) (pred : HsSlot → Bool) (why : LeaveReason)
    (dst : SocketAddr) (reason : DenyReason) :
    .send dst (.deny reason) ∉ (hs.removeWhere pred why).1 := by
  intro h
  rcases mem_removeWhere h with ⟨_, _, _, _, hact⟩ | h
  · cases hact
  · exact deny_not_mem_broadcastRoster _ _ _ _ h

theorem deny_not_mem_tick (hs : HostHandshake) (nowMs : Nat) (dst : SocketAddr)
    (reason : DenyReason) : .send dst (.deny reason) ∉ (hs.tick nowMs).1 := by
  intro h
  rcases mem_tick h with ⟨_, _, _, _, _, he⟩ | ⟨_, _, _, _, _, _, he⟩ | h
  · cases he
  · cases he
  · exact deny_not_mem_broadcastRoster _ _ _ _ h

/-- Who is denied, and why. -/
theorem onHello_deny {hs : HostHandshake} {addr dst : SocketAddr} {hello : Control} {nowMs : Nat}
    {reason : DenyReason} (h : .send dst (.deny reason) ∈ (hs.onHello addr hello nowMs).1) :
    dst = addr ∧ (¬ hs.Admits hello ∨ ∀ i, ∃ a, hs.addrAt i = some a ∧ a ≠ addr) := by
  have hans := onHello_answers hs addr hello nowMs
  generalize hs.onHello addr hello nowMs = r at hans h ⊢
  have single : ∀ r, HostAction.send dst (.deny reason) ∈ [HostAction.send addr (.deny r)] →
      dst = addr := fun r hmem => (HostAction.send.inj (List.mem_singleton.mp hmem)).1
  cases hans with
  | ignores hne => cases h
  | refuses hr hno => exact ⟨single _ h, .inl hno⟩
  | again hello_eq haddr => cases List.mem_singleton.mp h
  | full hnew hfull =>
    refine ⟨single _ h, .inr fun i => ?_⟩
    obtain ⟨s, hs'⟩ := Option.ne_none_iff_exists'.mp (hfull i)
    have haddr := addrAt_of_slots hs'
    exact ⟨s.addr, haddr, fun ha => hnew i (ha ▸ haddr)⟩
  | joins hello_eq hnew hfree =>
    rcases List.mem_cons.mp h with h | h
    · cases h
    rcases List.mem_cons.mp h with h | h
    · cases h
    · exact absurd h (deny_not_mem_broadcastRoster _ _ _ _)

/-! ## Joins and leaves -/

/-- For every slot that is taken away there is one `ClientLeft`, in the order of the slots, and only
packets to send after that. -/
def Leaves (hs : HostHandshake) (actions : List HostAction) (hs' : HostHandshake) : Prop :=
  ∃ (why : Fin maxClients → Option LeaveReason) (sends : List HostAction),
    actions = (indices.filterMap fun i => (why i).map (HostAction.clientLeft (senderId i))) ++ sends ∧
    (∀ a ∈ sends, ∃ dst control, a = .send dst control) ∧
    ∀ i, hs'.addrAt i = (if (why i).isSome then none else hs.addrAt i) ∧
      ((why i).isSome = true → hs.slots i ≠ none)

theorem Leaves.announced {hs hs' : HostHandshake} {actions : List HostAction}
    (h : Leaves hs actions hs') : ∀ a ∈ actions, (∃ dst control, a = .send dst control) ∨
      ∃ i reason, a = .clientLeft (senderId i) reason ∧ hs'.slots i = none := by
  obtain ⟨why, sends, rfl, hsends, haddr⟩ := h
  intro a ha
  rcases List.mem_append.mp ha with ha | ha
  · obtain ⟨i, _, hi⟩ := List.mem_filterMap.mp ha
    obtain ⟨reason, hwhy, rfl⟩ := Option.map_eq_some_iff.mp hi
    refine .inr ⟨i, reason, rfl, addrAt_eq_none.mp ?_⟩
    rw [(haddr i).1, hwhy]
    rfl
  · exact .inl (hsends a ha)

theorem Leaves.addrAt {hs hs' : HostHandshake} {actions : List HostAction}
    (h : Leaves hs actions hs') (i : Fin maxClients) :
    hs'.addrAt i = hs.addrAt i ∨ ∃ reason, .clientLeft (senderId i) reason ∈ actions := by
  obtain ⟨why, sends, rfl, hsends, haddr⟩ := h
  rw [(haddr i).1]
  cases hwhy : why i with
  | none => exact .inl rfl
  | some reason =>
    refine .inr ⟨reason, List.mem_append_left _ (List.mem_filterMap.mpr ⟨i, List.mem_finRange i, ?_⟩)⟩
    rw [hwhy, Option.map_some]

theorem tick_leaves (hs : HostHandshake) (nowMs : Nat) :
    Leaves hs (hs.tick nowMs).1 (hs.tick nowMs).2 := by
  obtain ⟨rosters, hactions, hrosters⟩ := hs.tick_actions nowMs
  refine ⟨_, _, hactions.trans (List.append_assoc _ _ _), fun a ha => ?_, fun i => ?_⟩
  · rcases List.mem_append.mp ha with ha | ha
    · obtain ⟨i, _, hi⟩ := List.mem_filterMap.mp ha
      obtain ⟨s, _, rfl⟩ := Option.map_eq_some_iff.mp hi
      exact ⟨_, _, rfl⟩
    · obtain ⟨dst, rfl⟩ := mem_broadcastRoster (hrosters a ha)
      exact ⟨_, _, rfl⟩
  unfold HostHandshake.addrAt
  rw [show (hs.tick nowMs).2.slots i = (hs.slots i).bind (tickEntry nowMs) from rfl]
  cases hs.slots i with
  | none => exact ⟨rfl, fun h => by cases h⟩
  | some s =>
    refine ⟨?_, fun _ => Option.some_ne_none s⟩
    rw [Option.bind_some, Option.bind_some, tickReason]
    cases ht : tickSlot nowMs s with
    | left reason => rw [tickEntry, ht]; rfl
    | kept => rw [tickEntry, ht]; rfl
    | resend r =>
      have he : tickEntry nowMs s = some r := by rw [tickEntry, ht]
      rw [he, Option.map_some, tickEntry_addr he]
      rfl

theorem removeWhere_leaves (hs : HostHandshake) (pred : HsSlot → Bool) (reason : LeaveReason) :
    Leaves hs (hs.removeWhere pred reason).1 (hs.removeWhere pred reason).2 := by
  let why : Fin maxClients → Option LeaveReason := fun i =>
    if (hs.slots i).any pred then some reason else none
  have hleft : ((indices.filter fun i => (hs.slots i).any pred).map
      fun i => HostAction.clientLeft (senderId i) reason) =
        indices.filterMap fun i => (why i).map (HostAction.clientLeft (senderId i)) := by
    rw [← List.filterMap_eq_map, List.filterMap_filter]
    refine List.filterMap_congr fun i _ => ?_
    show _ = (if (hs.slots i).any pred then some reason else none).map _
    split <;> rfl
  refine ⟨why, if (indices.filter fun i => (hs.slots i).any pred).isEmpty then []
    else (hs.removeWhere pred reason).2.broadcastRoster none, ?_, ?_, fun i => ?_⟩
  · rw [← hleft]
    unfold removeWhere
    simp only
    split
    · rw [List.append_nil]
    · rfl
  · intro a ha
    split at ha
    · cases ha
    · obtain ⟨dst, rfl⟩ := mem_broadcastRoster ha
      exact ⟨_, _, rfl⟩
  · show (if (hs.slots i).any pred then none else hs.slots i).map HsSlot.addr =
      (if (if (hs.slots i).any pred then some reason else none).isSome then none else hs.addrAt i) ∧
      ((if (hs.slots i).any pred then some reason else none).isSome = true → hs.slots i ≠ none)
    split
    · rename_i hpred
      refine ⟨rfl, fun _ hnone => ?_⟩
      rw [hnone] at hpred
      cases hpred
    · exact ⟨rfl, fun h => by cases h⟩

/-- Stamping a WELCOME leaves every promise in place. -/
theorem vouches_welcomeSent {hs : HostHandshake} {a : HostAction} (h : hs.Vouches a)
    (dst : SocketAddr) (seq : UInt16) : (hs.welcomeSent dst seq).Vouches a := by
  have hk := keeps_welcomeSent hs dst seq
  cases a with
  | send d control =>
    cases control <;> simp only [Vouches, hk.addrAt, hk.sessionId] at h ⊢ <;> exact h
  | clientJoined sender name =>
    obtain ⟨i, s, hid, hs', hstate⟩ := h
    have hw : (hs.welcomeSent dst seq).slots i = (hs.slots i).map _ := rfl
    rw [hs', Option.map_some] at hw
    refine ⟨i, _, hid, hw, ?_⟩
    split
    · split
      · simp
      · exact hstate
    · exact hstate
  | clientLeft sender reason => exact h

end HostHandshake

end OnlineJam
