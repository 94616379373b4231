import OnlineJam.Proofs.MembershipProofs

/-!
# Host handshake: who knows the roster

Every operation that changes the roster tells it to everybody with a slot, but for one: a HELLO from
the holder of a slot under a new name is answered to the holder only.
-/

namespace OnlineJam

namespace HostHandshake

/-- The same players have the same slots. -/
structure SamePlayers (hs hs' : HostHandshake) : Prop where
  hostName : hs'.hostName = hs.hostName
  player : ∀ i, (hs'.slots i).map HsSlot.player = (hs.slots i).map HsSlot.player

/-- Some packet tells the player of each slot a roster. -/
def TellsAll (hs : HostHandshake) (actions : List HostAction) : Prop :=
  ∀ i s, hs.slots i = some s → ∃ act ∈ actions, (act.tells s.addr).isSome = true

theorem SamePlayers.refl (hs : HostHandshake) : SamePlayers hs hs := ⟨rfl, fun _ => rfl⟩

theorem SamePlayers.roster {hs hs' : HostHandshake} (h : SamePlayers hs hs') :
    hs'.roster = hs.roster := by
  have hplayer : ∀ (hs : HostHandshake) i,
      ((hs.slots i).map fun s => ({ id := senderId i, name := s.name } : PlayerInfo)) =
        ((hs.slots i).map HsSlot.player).map fun p => { id := senderId i, name := p.2 } := by
    intro hs i
    rw [Option.map_map]
    rfl
  rw [HostHandshake.roster, HostHandshake.roster, h.hostName]
  congr 1
  refine List.filterMap_congr fun i _ => ?_
  rw [hplayer, hplayer, h.player]

/-- Who has a slot afterwards had it before. -/
theorem SamePlayers.slots {hs hs' : HostHandshake} (h : SamePlayers hs hs') {i : Fin maxClients}
    {s' : HsSlot} (hi : hs'.slots i = some s') : ∃ s, hs.slots i = some s ∧ s.addr = s'.addr := by
  have hp := h.player i
  rw [hi, Option.map_some] at hp
  obtain ⟨s, hs', he⟩ := Option.map_eq_some_iff.mp hp.symm
  exact ⟨s, hs', congrArg Prod.fst he⟩

theorem same_setSlot {hs : HostHandshake} {k : Fin maxClients} {s s' : HsSlot}
    (hk : hs.slots k = some s) (h : s'.player = s.player) : SamePlayers hs (hs.setSlot k (some s')) := by
  refine ⟨rfl, fun i => ?_⟩
  show (Function.update hs.slots k (some s') i).map HsSlot.player = _
  rw [Function.update_apply]
  split
  · rename_i hik
    rw [hik, hk, Option.map_some, Option.map_some, h]
  · rfl

theorem same_mapSlots (hs : HostHandshake) {f : HsSlot → HsSlot} (hf : ∀ s, (f s).player = s.player) :
    SamePlayers hs (hs.mapSlots f) := by
  refine ⟨rfl, fun i => ?_⟩
  rw [mapSlots, Option.map_map]
  congr 1
  exact funext hf

/-! ## Broadcasts -/

theorem mem_broadcastRoster_of {hs : HostHandshake} {except : Option SocketAddr} {i : Fin maxClients}
    {s : HsSlot} (hi : hs.slots i = some s) (hne : some s.addr ≠ except) :
    .send s.addr (.roster hs.roster) ∈ hs.broadcastRoster except := by
  refine List.mem_filterMap.mpr ⟨i, List.mem_finRange i, ?_⟩
  rw [hi, Option.bind_eq_bind, Option.bind_some, if_pos hne]

theorem tells_roster (a : SocketAddr) (players : List PlayerInfo) :
    ((HostAction.send a (.roster players)).tells a).isSome = true := by
  rw [HostAction.tells, if_pos rfl, Option.isSome_some]

theorem tells_welcome (a : SocketAddr) (hs : HostHandshake) (i : Fin maxClients) :
    ((HostAction.send a (hs.welcomeFor i)).tells a).isSome = true := by
  rw [welcomeFor, HostAction.tells, if_pos rfl, Option.isSome_some]

/-! ## One operation -/

theorem onHello_informs {hs : HostHandshake} {addr : SocketAddr} {hello : Control} {nowMs : Nat}
    (hn : ¬ hs.Renames (.onHello addr hello nowMs)) :
    SamePlayers hs (hs.onHello addr hello nowMs).2 ∨
      (hs.onHello addr hello nowMs).2.TellsAll (hs.onHello addr hello nowMs).1 := by
  have hans := onHello_answers hs addr hello nowMs
  revert hans
  generalize hs.onHello addr hello nowMs = r
  intro hans
  cases hans with
  | ignores hne => exact .inl (SamePlayers.refl hs)
  | refuses hr hno => exact .inl (SamePlayers.refl hs)
  | full hnew hfull => exact .inl (SamePlayers.refl hs)
  | @again slot name codecMask frameMask hello_eq haddr =>
    obtain ⟨s, hs', haddr⟩ := addrAt_eq_some.mp haddr
    by_cases hname : name = s.name
    · exact .inl (same_setSlot hs' (Prod.ext haddr.symm hname))
    · -- Nobody else is there to be told.
      refine .inr fun i t ht => ⟨_, List.mem_singleton_self _, ?_⟩
      have ht : Function.update hs.slots slot (some (newcomer addr name nowMs)) i = some t := ht
      rw [Function.update_apply] at ht
      split at ht
      · rw [← Option.some.inj ht]
        exact tells_welcome _ _ _
      · rename_i hi
        exact absurd ⟨slot, s, name, codecMask, frameMask, hs', haddr, hello_eq, hname, i, hi,
          by rw [ht]; rfl⟩ hn
  | @joins slot name codecMask frameMask hello_eq hnew hfree =>
    refine .inr fun i t ht => ?_
    have hi : Function.update hs.slots slot (some (newcomer addr name nowMs)) i = some t := ht
    rw [Function.update_apply] at hi
    split at hi
    · rw [← Option.some.inj hi]
      exact ⟨_, List.mem_cons_self, tells_welcome _ _ _⟩
    · have hne : some t.addr ≠ some addr := by
        rw [← addrAt_of_slots hi]
        exact hnew i
      exact ⟨_, List.mem_cons_of_mem _ (List.mem_cons_of_mem _ (mem_broadcastRoster_of ht hne)),
        tells_roster _ _⟩

theorem removeWhere_informs (hs : HostHandshake) (pred : HsSlot → Bool) (reason : LeaveReason) :
    SamePlayers hs (hs.removeWhere pred reason).2 ∨
      (hs.removeWhere pred reason).2.TellsAll (hs.removeWhere pred reason).1 := by
  by_cases hgone : (indices.filter fun i => (hs.slots i).any pred).isEmpty = true
  · refine .inl ⟨rfl, fun i => ?_⟩
    have hi := List.filter_eq_nil_iff.mp (List.isEmpty_iff.mp hgone) i (List.mem_finRange i)
    show (if (hs.slots i).any pred then none else hs.slots i).map HsSlot.player = _
    rw [if_neg hi]
  · refine .inr fun i s hi => ⟨.send s.addr (.roster (hs.removeWhere pred reason).2.roster), ?_,
      tells_roster _ _⟩
    unfold removeWhere
    simp only
    rw [if_neg hgone]
    exact List.mem_append_right _ (mem_broadcastRoster_of hi (Option.some_ne_none _))

theorem tick_informs (hs : HostHandshake) (nowMs : Nat) :
    SamePlayers hs (hs.tick nowMs).2 ∨ (hs.tick nowMs).2.TellsAll (hs.tick nowMs).1 := by
  by_cases hleft : ∀ i, (hs.slots i).bind (tickReason nowMs) = none
  · refine .inl ⟨rfl, fun i => ?_⟩
    have hi := hleft i
    show ((hs.slots i).bind (tickEntry nowMs)).map HsSlot.player = _
    cases hs' : hs.slots i with
    | none => rfl
    | some s =>
      rw [hs', Option.bind_some, tickReason] at hi
      rw [Option.bind_some]
      cases ht : tickEntry nowMs s with
      | some s' => rw [Option.map_some, Option.map_some, tickEntry_player ht]
      | none =>
        rw [tickEntry] at ht
        cases ho : tickSlot nowMs s with
        | left reason =>
          rw [ho] at hi
          cases hi
        | resend r =>
          rw [ho] at ht
          cases ht
        | kept =>
          rw [ho] at ht
          cases ht
  · refine .inr fun i s hi => ⟨.send s.addr (.roster (hs.tick nowMs).2.roster),
      List.mem_append_right _ ?_, tells_roster _ _⟩
    have hmem := mem_broadcastRoster_of hi (Option.some_ne_none _)
    split
    · rename_i hempty
      refine absurd (fun k => ?_) hleft
      have hk := List.filterMap_eq_nil_iff.mp (List.isEmpty_iff.mp hempty) k (List.mem_finRange k)
      cases hs' : hs.slots k with
      | none => rfl
      | some t =>
        simp only [hs', Option.map_some] at hk
        rw [Option.bind_some, tickReason]
        cases ho : tickSlot nowMs t with
        | left reason =>
          rw [ho] at hk
          cases hk
        | _ => rfl
    · exact hmem

end HostHandshake

open HostHandshake

theorem HostOp.informs_exec {hs : HostHandshake} {op : HostOp} (hn : ¬ hs.Renames op) :
    SamePlayers hs (op.exec hs).2 ∨ (op.exec hs).2.TellsAll (op.exec hs).1 := by
  cases op with
  | onHello addr hello nowMs => exact onHello_informs hn
  | welcomeSent dst seq =>
    refine .inl (same_mapSlots hs fun s => ?_)
    split
    · split <;> rfl
    · rfl
  | onAck addr ackedSeq nowMs =>
    refine .inl (same_mapSlots hs fun s => ?_)
    split
    · split <;> rfl
    · rfl
  | markHeard id nowMs =>
    left
    show SamePlayers hs (hs.markHeard id nowMs)
    rw [HostHandshake.markHeard]
    split
    · split
      · rename_i hs'
        exact same_setSlot hs' rfl
      · exact SamePlayers.refl hs
    · exact SamePlayers.refl hs
  | onBye addr => exact removeWhere_informs hs _ _
  | tick nowMs => exact tick_informs hs nowMs

/-- A player who takes another name gets a WELCOME, and nobody else hears of it. -/
theorem HostOp.renames_exec {hs : HostHandshake} {op : HostOp} (hd : hs.Distinct)
    (hn : hs.Renames op) : ∃ i s name nowMs j t, hs.slots i = some s ∧ name ≠ s.name ∧ j ≠ i ∧
      hs.slots j = some t ∧ op.exec hs =
        ([.send s.addr ((hs.setSlot i (some (newcomer s.addr name nowMs))).welcomeFor i)],
          hs.setSlot i (some (newcomer s.addr name nowMs))) := by
  cases op with
  | onHello addr hello nowMs =>
    obtain ⟨i, s, name, codecMask, frameMask, hi, rfl, hello_eq, hname, j, hj, hsome⟩ := hn
    obtain ⟨t, ht⟩ := Option.isSome_iff_exists.mp hsome
    have haddr := addrAt_of_slots hi
    refine ⟨i, s, name, nowMs, j, t, hi, hname, hj, ht, ?_⟩
    have hans := onHello_answers hs s.addr hello nowMs
    rw [exec]
    revert hans
    generalize hs.onHello s.addr hello nowMs = out
    intro hans
    cases hans with
    | ignores hno => exact absurd (congrArg Control.packetType hello_eq) hno
    | refuses hr hno => exact absurd ⟨_, _, _, hello_eq⟩ hno
    | full hnew hfull => exact absurd haddr (hnew i)
    | joins hello_eq' hnew hfree => exact absurd haddr (hnew i)
    | again hello_eq' hslot =>
      obtain rfl := hd _ i _ hslot haddr
      rw [hello_eq] at hello_eq'
      obtain ⟨_, _, rfl, _⟩ := Control.hello.inj hello_eq'
      rfl
  | _ => exact absurd hn id

/-! ## Histories -/

theorem lastTold_append (as bs : List HostAction) (a : SocketAddr) :
    lastTold (as ++ bs) a = (lastTold bs a).or (lastTold as a) := by
  rw [lastTold, List.filterMap_append, List.getLast?_append]
  rfl

/-- Packets that tell one roster only. -/
theorem lastTold_eq {actions : List HostAction} {a : SocketAddr} {players : List PlayerInfo}
    (hall : ∀ act ∈ actions, ∀ r, act.tells a = some r → r = players) :
    lastTold actions a = some players ∨
      lastTold actions a = none ∧ ∀ act ∈ actions, (act.tells a).isSome = false := by
  rw [lastTold]
  cases hl : (actions.filterMap (HostAction.tells a)).getLast? with
  | none =>
    refine .inr ⟨rfl, fun act hact => ?_⟩
    have hnil := List.filterMap_eq_nil_iff.mp (List.getLast?_eq_none_iff.mp hl) act hact
    rw [hnil, Option.isSome_none]
  | some r =>
    left
    obtain ⟨act, hact, ht⟩ := List.mem_filterMap.mp (List.mem_of_getLast? hl)
    rw [hall act hact r ht]

namespace HostHistory

variable {r : HostHistory} {op : HostOp}

theorem Informed.apply (h : r.Informed) (hn : ¬ r.hs.Renames op) : (r.apply op).Informed := by
  intro i s' hi
  have hi : (op.exec r.hs).2.slots i = some s' := hi
  show lastTold (r.emitted ++ (op.exec r.hs).1) s'.addr = some (op.exec r.hs).2.roster
  rw [lastTold_append]
  rcases lastTold_eq (a := s'.addr) fun act hact players ht => HostOp.tells_exec hact ht with
    htold | ⟨hnone, hsilent⟩
  · rw [htold, Option.some_or]
  · rw [hnone, Option.none_or]
    rcases HostOp.informs_exec hn with hsame | hall
    · obtain ⟨s, hs', haddr⟩ := hsame.slots hi
      rw [hsame.roster, ← haddr]
      exact h i s hs'
    · obtain ⟨act, hact, ht⟩ := hall i s' hi
      rw [hsilent act hact] at ht
      cases ht

/-- A new name reaches nobody but the player who took it. -/
theorem Informed.not_apply (hd : r.hs.Distinct) (h : r.Informed) (hn : r.hs.Renames op) :
    ¬ (r.apply op).Informed := by
  obtain ⟨i, s, name, nowMs, j, t, hi, hname, hj, ht, hexec⟩ := HostOp.renames_exec hd hn
  have hne : s.addr ≠ t.addr := fun he =>
    hj (hd j i s.addr (he ▸ addrAt_of_slots ht) (addrAt_of_slots hi))
  have hslots : (r.apply op).hs = r.hs.setSlot i (some (newcomer s.addr name nowMs)) :=
    congrArg Prod.snd hexec
  intro hinf
  -- The other player was last told the old roster, in which the old name stands.
  have hold : lastTold (r.apply op).emitted t.addr = some r.hs.roster := by
    show lastTold (r.emitted ++ (op.exec r.hs).1) t.addr = _
    rw [hexec, lastTold_append, lastTold, List.filterMap_cons, welcomeFor, HostAction.tells, if_neg hne]
    exact h j t ht
  have hother := hinf j t (by rw [hslots]; exact (Function.update_of_ne hj _ _).trans ht)
  rw [hold, Option.some_inj] at hother
  obtain ⟨players, hroster, _, hmem⟩ := r.hs.listed
  obtain ⟨players', hroster', _, hmem'⟩ := (r.apply op).hs.listed
  rw [hroster, hroster'] at hother
  obtain rfl := (List.cons.inj hother).2
  obtain ⟨k, s', hs', he⟩ := (hmem _).mp ((hmem' _).mpr ⟨i, newcomer s.addr name nowMs,
    by rw [hslots]; exact Function.update_self i _ _, rfl⟩)
  obtain ⟨hid, hname'⟩ := PlayerInfo.mk.inj he
  obtain rfl := senderId_inj hid
  rw [hi] at hs'
  rw [← Option.some.inj hs'] at hname'
  exact hname hname'

end HostHistory

/-- Everybody with a slot knows the roster all along exactly as long as nobody takes another name while
somebody else is there. -/
theorem HostHandshake.everybody_informed (roomCode : Vector UInt8 roomCodeLen) (sessionId : UInt16)
    (params : SessionParams) (hostName : String) (ops : List HostOp) :
    (∀ pre, pre <+: ops → (HostHistory.run (new roomCode sessionId params hostName) pre).Informed) ↔
      ∀ pre op, pre ++ [op] <+: ops →
        ¬ (HostHistory.run (new roomCode sessionId params hostName) pre).hs.Renames op := by
  constructor
  · intro h pre op hpre hn
    have hbefore := h pre ((List.prefix_append _ _).trans hpre)
    refine hbefore.not_apply (HostHistory.distinct_run (fun i j a hi => by cases hi) pre) hn ?_
    rw [← HostHistory.run_snoc]
    exact h _ hpre
  · intro h pre hpre
    induction pre using List.reverseRecOn with
    | nil =>
      intro i s hi
      cases hi
    | append_singleton pre op ih =>
      rw [HostHistory.run_snoc]
      exact (ih ((List.prefix_append _ _).trans hpre)).apply (h pre op hpre)

/-- Two players join and the first one starts again under another name: the second one is not told. -/
theorem HostHandshake.rename_untold :
    ¬ (HostHistory.run
      (new #v[74, 65, 77, 74, 65, 77] 7 { sampleRate := 48000, frameSamples := 120, codec := .pcmS16 }
        "host")
      [.onHello (.v4 1 5000) (.hello protocolVersion #v[74, 65, 77, 74, 65, 77] "ann" 7 3) 0,
        .onHello (.v4 2 5000) (.hello protocolVersion #v[74, 65, 77, 74, 65, 77] "bob" 7 3) 10,
        .onHello (.v4 1 5000) (.hello protocolVersion #v[74, 65, 77, 74, 65, 77] "amy" 7 3)
          20]).Informed := by
  intro h
  have hbob := h 1 { addr := .v4 2 5000, name := "bob", state := .pending none 10 1, lastHeardMs := 10 }
    (by decide +kernel)
  revert hbob
  decide +kernel

end OnlineJam
