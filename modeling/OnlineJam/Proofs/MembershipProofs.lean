import OnlineJam.Protocol.HandshakeRun
import OnlineJam.Proofs.HandshakeProofs
import Mathlib.Data.List.Chain
import Mathlib.Data.List.Induction

/-!
# Host handshake: membership

The slot table over histories of calls: who has which slot, what the roster lists, whom a WELCOME or a
DENY answers, and that joins and leaves are announced in turn.
-/

namespace OnlineJam

namespace HostHandshake

/-! ## The roster -/

/-- An id and an address belong together in both directions. -/
def Paired (hs : HostHandshake) : Prop :=
  ∀ id a, hs.clientAddr id = some a ↔ hs.senderForAddr a = some id

/-- The roster starts with the host and lists the occupied slots in the order of their ids. -/
def Listed (hs : HostHandshake) : Prop :=
  ∃ players, hs.roster = { id := hostSenderId, name := hs.hostName } :: players ∧
    (hs.roster.map PlayerInfo.id).Pairwise (· < ·) ∧
    ∀ p, p ∈ players ↔ ∃ i s, hs.slots i = some s ∧ p = { id := senderId i, name := s.name }

theorem hostSenderId_lt (i : Fin maxClients) : hostSenderId < senderId i := by
  revert i
  decide

theorem senderId_lt {i j : Fin maxClients} (h : i < j) : senderId i < senderId j := by
  revert i j
  decide

theorem Distinct.paired {hs : HostHandshake} (hd : hs.Distinct) : hs.Paired := by
  intro id a
  rw [clientAddr_eq]
  constructor
  · intro h
    obtain ⟨i, hi, ha⟩ := Option.bind_eq_some_iff.mp h
    rw [hd.senderForAddr ha, slotOfSender_eq_some.mp hi]
  · intro h
    obtain ⟨i, hi, rfl⟩ := senderForAddr_eq_some h
    rw [slotOfSender_senderId, Option.bind_some, hi]

theorem listed (hs : HostHandshake) : hs.Listed := by
  refine ⟨_, rfl, ?_, fun p => ?_⟩
  · rw [List.pairwise_map, roster, List.pairwise_cons]
    constructor
    · intro p hp
      obtain ⟨i, _, hi⟩ := List.mem_filterMap.mp hp
      obtain ⟨s, _, rfl⟩ := Option.map_eq_some_iff.mp hi
      exact hostSenderId_lt i
    · refine List.Pairwise.filterMap _ (R := (· < ·)) (fun i j hij p hp q hq => ?_)
        (List.pairwise_lt_finRange _)
      obtain ⟨s, _, rfl⟩ := Option.map_eq_some_iff.mp hp
      obtain ⟨t, _, rfl⟩ := Option.map_eq_some_iff.mp hq
      exact senderId_lt hij
  · constructor
    · intro hp
      obtain ⟨i, _, hi⟩ := List.mem_filterMap.mp hp
      obtain ⟨s, hs', rfl⟩ := Option.map_eq_some_iff.mp hi
      exact ⟨i, s, hs', rfl⟩
    · rintro ⟨i, s, hs', rfl⟩
      refine List.mem_filterMap.mpr ⟨i, List.mem_finRange i, ?_⟩
      rw [hs', Option.map_some]

/-! ## What an operation tells -/

/-- Whom a WELCOME goes to, as the table is afterwards. -/
def WelcomesHolders (hs : HostHandshake) (actions : List HostAction) : Prop :=
  ∀ dst id sessionId sampleRate frameSamples codec roster,
    .send dst (.welcome id sessionId sampleRate frameSamples codec roster) ∈ actions →
      hs.senderForAddr dst = some id ∧ id ∈ roster.map PlayerInfo.id

/-- Who is told that the room is full. -/
def FullOfOthers (hs : HostHandshake) (actions : List HostAction) : Prop :=
  ∀ dst, .send dst (.deny .roomFull) ∈ actions → ∀ i, ∃ s, hs.slots i = some s ∧ s.addr ≠ dst

theorem tells_broadcastRoster {hs : HostHandshake} {except : Option SocketAddr} {act : HostAction}
    (h : act ∈ hs.broadcastRoster except) {a : SocketAddr} {players : List PlayerInfo}
    (ht : act.tells a = some players) : players = hs.roster := by
  obtain ⟨dst, rfl⟩ := mem_broadcastRoster h
  rw [HostAction.tells] at ht
  split at ht
  · exact (Option.some.inj ht).symm
  · cases ht

theorem tells_welcomeFor {hs : HostHandshake} {i : Fin maxClients} {a dst : SocketAddr}
    {players : List PlayerInfo}
    (ht : (HostAction.send dst (hs.welcomeFor i)).tells a = some players) : players = hs.roster := by
  rw [welcomeFor, HostAction.tells] at ht
  split at ht
  · exact (Option.some.inj ht).symm
  · cases ht

theorem tells_removeWhere {hs : HostHandshake} {pred : HsSlot → Bool} {reason : LeaveReason}
    {act : HostAction} (h : act ∈ (hs.removeWhere pred reason).1) {a : SocketAddr}
    {players : List PlayerInfo} (ht : act.tells a = some players) :
    players = (hs.removeWhere pred reason).2.roster := by
  rcases mem_removeWhere h with ⟨_, _, _, _, rfl⟩ | h
  · cases ht
  · exact tells_broadcastRoster h ht

theorem tells_tick {hs : HostHandshake} {nowMs : Nat} {act : HostAction}
    (h : act ∈ (hs.tick nowMs).1) {a : SocketAddr} {players : List PlayerInfo}
    (ht : act.tells a = some players) : players = (hs.tick nowMs).2.roster := by
  rcases mem_tick h with ⟨_, _, _, _, _, rfl⟩ | ⟨_, _, _, _, _, _, rfl⟩ | h
  · cases ht
  · exact tells_welcomeFor ht
  · exact tells_broadcastRoster h ht

theorem tells_onHello {hs : HostHandshake} {addr : SocketAddr} {hello : Control} {nowMs : Nat}
    {act : HostAction} (h : act ∈ (hs.onHello addr hello nowMs).1) {a : SocketAddr}
    {players : List PlayerInfo} (ht : act.tells a = some players) :
    players = (hs.onHello addr hello nowMs).2.roster := by
  have hans := onHello_answers hs addr hello nowMs
  generalize hs.onHello addr hello nowMs = r at hans h ⊢
  cases hans with
  | ignores hne => cases h
  | refuses hr hno =>
    rw [List.mem_singleton.mp h] at ht
    cases ht
  | full hnew hfull =>
    rw [List.mem_singleton.mp h] at ht
    cases ht
  | again hello_eq haddr =>
    rw [List.mem_singleton.mp h] at ht
    exact tells_welcomeFor ht
  | joins hello_eq hnew hfree =>
    rcases List.mem_cons.mp h with rfl | h
    · exact tells_welcomeFor ht
    rcases List.mem_cons.mp h with rfl | h
    · cases ht
    · exact tells_broadcastRoster h ht

end HostHandshake

namespace HostOp

open HostHandshake

variable {hs : HostHandshake} {op : HostOp}

/-- Every roster that an operation sends is the one that holds afterwards. -/
theorem tells_exec {act : HostAction} (h : act ∈ (op.exec hs).1) {a : SocketAddr}
    {players : List PlayerInfo} (ht : act.tells a = some players) :
    players = (op.exec hs).2.roster := by
  cases op with
  | onHello addr hello nowMs => exact tells_onHello h ht
  | onBye addr => exact tells_removeWhere h ht
  | tick nowMs => exact tells_tick h ht
  | _ => cases h

/-- Only the sender of a HELLO can be new in a slot. -/
theorem moves_exec : Moves (fun a => ∃ hello nowMs, op = .onHello a hello nowMs) hs (op.exec hs).2 := by
  cases op with
  | onHello addr hello nowMs =>
    exact (onHello_spec hs addr hello nowMs).1.mono fun _ ha => ⟨hello, nowMs, by rw [ha.1]⟩
  | welcomeSent dst seq => exact (keeps_welcomeSent hs dst seq).moves
  | onAck addr ackedSeq nowMs => exact (keeps_onAck hs addr ackedSeq nowMs).moves
  | markHeard id nowMs => exact (keeps_markHeard hs id nowMs).moves
  | onBye addr => exact moves_removeWhere hs _ _
  | tick nowMs => exact moves_tick hs nowMs

theorem vouches_exec : ∀ act ∈ (op.exec hs).1, (op.exec hs).2.Vouches act := by
  cases op with
  | onHello addr hello nowMs => exact (onHello_spec hs addr hello nowMs).2
  | onBye addr => exact vouches_removeWhere hs _ _
  | tick nowMs => exact vouches_tick hs nowMs
  | _ => exact fun act ha => by cases ha

theorem welcomes_exec (hd : hs.Distinct) : (op.exec hs).2.WelcomesHolders (op.exec hs).1 := by
  intro dst id sessionId sampleRate frameSamples codec players h
  obtain ⟨⟨i, hi, rfl⟩, _⟩ := vouches_exec _ h
  refine ⟨(moves_exec.distinct hd).senderForAddr hi, ?_⟩
  obtain rfl : players = (op.exec hs).2.roster := tells_exec (a := dst) h (if_pos rfl)
  obtain ⟨s, hs', _⟩ := addrAt_eq_some.mp hi
  obtain ⟨rest, hroster, _, hmem⟩ := (op.exec hs).2.listed
  rw [hroster]
  exact List.mem_map.mpr ⟨_, List.mem_cons_of_mem _ ((hmem _).mpr ⟨i, s, hs', rfl⟩), rfl⟩

theorem full_exec : hs.FullOfOthers (op.exec hs).1 := by
  intro dst h
  cases op with
  | onHello addr hello nowMs =>
    replace h : .send dst (.deny .roomFull) ∈ (hs.onHello addr hello nowMs).1 := h
    have hans := onHello_answers hs addr hello nowMs
    generalize hs.onHello addr hello nowMs = r at hans h ⊢
    cases hans with
    | ignores hne => cases h
    | refuses hr hno =>
      cases List.mem_singleton.mp h
      exact absurd rfl hr
    | again hello_eq haddr => cases List.mem_singleton.mp h
    | full hnew hfull =>
      cases List.mem_singleton.mp h
      intro i
      obtain ⟨s, hs'⟩ := Option.ne_none_iff_exists'.mp (hfull i)
      exact ⟨s, hs', fun ha => hnew i (ha ▸ addrAt_of_slots hs')⟩
    | joins hello_eq hnew hfree =>
      rcases List.mem_cons.mp h with h | h
      · cases h
      rcases List.mem_cons.mp h with h | h
      · cases h
      · exact absurd h (deny_not_mem_broadcastRoster _ _ _ _)
  | onBye addr => exact absurd h (deny_not_mem_removeWhere _ _ _ _ _)
  | tick nowMs => exact absurd h (deny_not_mem_tick _ _ _ _)
  | _ => cases h

end HostOp

/-! ## Announcements -/

/-- A list in which one element at most is not dropped. -/
theorem filterMap_single {α β : Type} {l : List α} (hn : l.Nodup) {k : α} (hk : k ∈ l)
    {f : α → Option β} (hf : ∀ i ∈ l, i ≠ k → f i = none) : l.filterMap f = (f k).toList := by
  induction l with
  | nil => cases hk
  | cons x l ih =>
    obtain ⟨hx, hn⟩ := List.nodup_cons.mp hn
    by_cases hxk : x = k
    · subst hxk
      have hrest : l.filterMap f = [] := List.filterMap_eq_nil_iff.mpr fun i hi =>
        hf i (List.mem_cons_of_mem _ hi) fun he => hx (he ▸ hi)
      rw [List.filterMap_cons, hrest]
      cases f x <;> rfl
    · have hk : k ∈ l := (List.mem_cons.mp hk).resolve_left fun he => hxk he.symm
      rw [List.filterMap_cons, hf x List.mem_cons_self hxk]
      exact ih hn hk fun i hi => hf i (List.mem_cons_of_mem _ hi)

theorem announcements_append (as bs : List HostAction) (id : UInt16) :
    announcements (as ++ bs) id = announcements as id ++ announcements bs id :=
  List.filterMap_append

theorem announcements_sends {actions : List HostAction}
    (h : ∀ a ∈ actions, ∃ dst control, a = .send dst control) (id : UInt16) :
    announcements actions id = [] := by
  refine List.filterMap_eq_nil_iff.mpr fun a ha => ?_
  obtain ⟨dst, control, rfl⟩ := h a ha
  rfl

namespace HostHandshake

theorem announcements_lefts (why : Fin maxClients → Option LeaveReason) (id : UInt16) :
    announcements (indices.filterMap fun i => (why i).map (HostAction.clientLeft (senderId i))) id =
      (((slotOfSender id).bind why).map fun _ => false).toList := by
  have hcomp : ∀ i, ((why i).map (HostAction.clientLeft (senderId i))).bind
      (HostAction.announces id) = if senderId i = id then (why i).map fun _ => false else none := by
    intro i
    cases why i with
    | none =>
      rw [Option.map_none, Option.map_none, ite_self]
      rfl
    | some reason => rfl
  rw [announcements, List.filterMap_filterMap]
  simp only [hcomp]
  cases hk : slotOfSender id with
  | none =>
    refine List.filterMap_eq_nil_iff.mpr fun i _ => if_neg fun hi => ?_
    rw [← hi, slotOfSender_senderId] at hk
    cases hk
  | some k =>
    obtain rfl := slotOfSender_eq_some.mp hk
    rw [filterMap_single (List.nodup_finRange _) (List.mem_finRange k), if_pos rfl, Option.bind_some]
    exact fun i _ hi => if_neg fun he => hi (senderId_inj he)

theorem occupied_eq (hs : HostHandshake) (id : UInt16) :
    hs.occupied id = ((slotOfSender id).bind hs.addrAt).isSome := by
  rw [occupied]
  cases slotOfSender id with
  | none => rfl
  | some i =>
    rw [Option.bind_some, Option.bind_some, addrAt, Option.isSome_map]

theorem Keeps.occupied {hs hs' : HostHandshake} (h : Keeps hs hs') (id : UInt16) :
    hs'.occupied id = hs.occupied id := by
  rw [occupied_eq, occupied_eq, funext h.addrAt]

/-- What is announced is the change of the slot, if it changes. -/
def Announces (hs : HostHandshake) (actions : List HostAction) (hs' : HostHandshake) : Prop :=
  ∀ id, announcements actions id =
    if hs'.occupied id = hs.occupied id then [] else [hs'.occupied id]

theorem Keeps.announces {hs hs' : HostHandshake} (h : Keeps hs hs') {actions : List HostAction}
    (hsends : ∀ a ∈ actions, ∃ dst control, a = .send dst control) : Announces hs actions hs' := by
  intro id
  rw [if_pos (h.occupied id), announcements_sends hsends]

theorem Leaves.announces {hs hs' : HostHandshake} {actions : List HostAction}
    (h : Leaves hs actions hs') : Announces hs actions hs' := by
  obtain ⟨why, sends, rfl, hsends, haddr⟩ := h
  intro id
  rw [announcements_append, announcements_sends hsends, List.append_nil, announcements_lefts,
    occupied_eq, occupied_eq]
  cases slotOfSender id with
  | none => rfl
  | some i =>
    obtain ⟨hi, hold⟩ := haddr i
    rw [Option.bind_some, Option.bind_some, Option.bind_some, hi]
    cases hwhy : why i with
    | none =>
      rw [Option.isSome_none, if_neg Bool.false_ne_true, if_pos rfl]
      rfl
    | some reason =>
      obtain ⟨a, ha⟩ := Option.ne_none_iff_exists'.mp
        (mt addrAt_eq_none.mp (hold (by rw [hwhy]; rfl)))
      rw [ha]
      rfl

theorem onHello_announces (hs : HostHandshake) (addr : SocketAddr) (hello : Control) (nowMs : Nat) :
    Announces hs (hs.onHello addr hello nowMs).1 (hs.onHello addr hello nowMs).2 := by
  rcases onHello_joins hs addr hello nowMs with ⟨hsends, hk⟩ |
    ⟨control, k, name, rest, hactions, hrest, hfree, haddr⟩
  · exact hk.announces hsends
  intro id
  have hann : announcements (hs.onHello addr hello nowMs).1 id =
      if senderId k = id then [true] else [] := by
    have hrest := announcements_sends hrest id
    rw [announcements] at hrest ⊢
    rw [hactions, List.filterMap_cons, List.filterMap_cons, hrest, HostAction.announces,
      HostAction.announces]
    by_cases hid : senderId k = id
    · rw [if_pos hid, if_pos hid]
    · rw [if_neg hid, if_neg hid]
  rw [hann, occupied_eq, occupied_eq]
  by_cases hid : senderId k = id
  · rw [if_pos hid, ← hid, slotOfSender_senderId, Option.bind_some, Option.bind_some, haddr, if_pos rfl,
      addrAt_eq_none.mpr hfree]
    rfl
  · rw [if_neg hid]
    cases hslot : slotOfSender id with
    | none => rfl
    | some i =>
      have hik : i ≠ k := by
        rintro rfl
        exact hid (slotOfSender_eq_some.mp hslot).symm
      rw [Option.bind_some, Option.bind_some, haddr, if_neg hik, if_pos rfl]

end HostHandshake

theorem HostOp.announces_exec (hs : HostHandshake) (op : HostOp) :
    hs.Announces (op.exec hs).1 (op.exec hs).2 := by
  have nothing : ∀ a ∈ ([] : List HostAction), ∃ dst control, a = .send dst control :=
    fun a ha => by cases ha
  cases op with
  | onHello addr hello nowMs => exact HostHandshake.onHello_announces hs addr hello nowMs
  | welcomeSent dst seq => exact (HostHandshake.keeps_welcomeSent hs dst seq).announces nothing
  | onAck addr ackedSeq nowMs => exact (HostHandshake.keeps_onAck hs addr ackedSeq nowMs).announces nothing
  | markHeard id nowMs => exact (HostHandshake.keeps_markHeard hs id nowMs).announces nothing
  | onBye addr => exact (HostHandshake.removeWhere_leaves hs _ _).announces
  | tick nowMs => exact (HostHandshake.tick_leaves hs nowMs).announces

/-! ## Histories -/

/-- A player joins, leaves, joins and so on. -/
def Alternates (l : List Bool) : Prop := l.head? ≠ some false ∧ l.IsChain (· ≠ ·)

namespace HostHistory

/-- Joins and leaves are announced in turn, and the last one tells whether the slot is occupied. -/
def Announced (r : HostHistory) : Prop :=
  ∀ id, Alternates (announcements r.emitted id) ∧
    (r.hs.occupied id = true ↔ (announcements r.emitted id).getLast? = some true)

theorem run_snoc (hs : HostHandshake) (ops : List HostOp) (op : HostOp) :
    run hs (ops ++ [op]) = (run hs ops).apply op := by
  rw [run, List.foldl_append]
  rfl

/-- What holds of a machine without slots and is kept by every operation. -/
theorem run_induction {hs : HostHandshake} {p : HostHistory → Prop}
    (h0 : p { hs := hs, emitted := [] }) (hstep : ∀ r op, p r → p (r.apply op)) (ops : List HostOp) :
    p (run hs ops) := by
  induction ops using List.reverseRecOn with
  | nil => exact h0
  | append_singleton ops op ih =>
    rw [run_snoc]
    exact hstep _ op ih

theorem distinct_run {hs : HostHandshake} (hd : hs.Distinct) (ops : List HostOp) :
    (run hs ops).hs.Distinct :=
  run_induction (p := fun r => r.hs.Distinct) hd (fun _ _ hr => HostOp.moves_exec.distinct hr) ops

theorem Announced.apply {r : HostHistory} (h : r.Announced) (op : HostOp) : (r.apply op).Announced := by
  intro id
  obtain ⟨⟨hhead, hchain⟩, hlast⟩ := h id
  show Alternates (announcements (r.emitted ++ (op.exec r.hs).1) id) ∧
    ((op.exec r.hs).2.occupied id = true ↔
      (announcements (r.emitted ++ (op.exec r.hs).1) id).getLast? = some true)
  rw [announcements_append, op.announces_exec r.hs id]
  split
  · rename_i hsame
    rw [List.append_nil, hsame]
    exact ⟨⟨hhead, hchain⟩, hlast⟩
  · rename_i hchange
    rw [List.getLast?_concat, Option.some_inj]
    refine ⟨⟨?_, List.isChain_append.mpr ⟨hchain, List.isChain_singleton _, ?_⟩⟩, Iff.rfl⟩
    · -- What comes first is a join.
      rw [List.head?_append]
      cases hl : announcements r.emitted id with
      | cons b bs =>
        rw [hl] at hhead
        exact hhead
      | nil =>
        rw [hl] at hlast
        intro hfalse
        have hnew : (op.exec r.hs).2.occupied id = false := Option.some.inj hfalse
        have hold : r.hs.occupied id = true := by
          cases hocc : r.hs.occupied id with
          | true => rfl
          | false => exact absurd (hnew.trans hocc.symm) hchange
        cases hlast.mp hold
    · intro x hx y hy
      obtain rfl : (op.exec r.hs).2.occupied id = y := Option.some.inj hy
      rintro rfl
      rw [Option.mem_def.mp hx, Option.some_inj] at hlast
      exact hchange (Bool.eq_iff_iff.mpr hlast).symm

end HostHistory

/-- The slot table of the host over any history of calls. -/
theorem HostHandshake.membership (roomCode : Vector UInt8 roomCodeLen) (sessionId : UInt16)
    (params : SessionParams) (hostName : String) (ops : List HostOp) :
    let r := HostHistory.run (new roomCode sessionId params hostName) ops
    r.hs.Distinct ∧ r.hs.Paired ∧ r.hs.Listed ∧
      (∀ op : HostOp, (op.exec r.hs).2.WelcomesHolders (op.exec r.hs).1) ∧
      (∀ op : HostOp, r.hs.FullOfOthers (op.exec r.hs).1) ∧ r.Announced := by
  intro r
  have hd : r.hs.Distinct := HostHistory.distinct_run (fun i j a hi => by cases hi) ops
  refine ⟨hd, hd.paired, r.hs.listed, fun op => HostOp.welcomes_exec hd,
    fun op => HostOp.full_exec, ?_⟩
  refine HostHistory.run_induction (p := HostHistory.Announced) (fun id => ?_)
    (fun r op hr => hr.apply op) ops
  refine ⟨⟨by simp [announcements], List.isChain_nil⟩, ?_⟩
  rw [occupied_eq]
  cases slotOfSender id with
  | none => exact ⟨fun h => (by cases h), fun h => by cases h⟩
  | some i => exact ⟨fun h => (by cases h), fun h => by cases h⟩

end OnlineJam
