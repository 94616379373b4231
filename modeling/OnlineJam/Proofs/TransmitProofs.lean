import OnlineJam.Core.HostTraffic
import OnlineJam.Proofs.OccupantProofs

/-!
# Host process: the transmit thread

What the audio callback puts into the ring leaves it once and in order, and goes to nobody who was never
announced for the slot it was made for.
-/

namespace OnlineJam

open OnlineJam.Lib
open HostHandshake

namespace Host

/-! ## What a step does to the transmit thread -/

/-- The thread's table, the updates on their way to it and the ring. -/
structure SameTx (h h' : Host) : Prop where
  tx : h'.tx = h.tx
  updates : h'.txUpdates = h.txUpdates
  ring : h'.txRing = h.txRing

inductive TxMove (h : Host) : HostLabel → Host → Prop
  | rests {l : HostLabel} {h' : Host} (haudio : ∀ encoded, l ≠ .audio encoded)
      (htx : l = .tx → h.txPhase ≠ .send ∨ h.txRing = []) (hs : SameTx h h') : TxMove h l h'
  | tells {nowUs : Nat} {task : HostTask} {tasks : List HostTask} {u : AddrUpdate} {h' : Host}
      (ht : h.tasks = task :: tasks) (hu : task.update h.hs = some u) (htx : h'.tx = h.tx)
      (hup : h'.txUpdates = h.txUpdates ++ [u]) (hring : h'.txRing = h.txRing) :
    TxMove h (.control nowUs) h'
  | learns {u : AddrUpdate} {us : List AddrUpdate} (hphase : h.txPhase = .drain)
      (hup : h.txUpdates = u :: us) : TxMove h .tx { h with tx := h.tx.update u, txUpdates := us }
  | queues {encoded : Vector (Option Bytes) maxClients} {items : List TxItem} {h' : Host}
      (hroom : items.length ≤ txRingSize - h.txRing.length)
      (hdest : ∀ item ∈ items, item.dest ≠ destPeer) (htx : h'.tx = h.tx)
      (hup : h'.txUpdates = h.txUpdates) (hring : h'.txRing = h.txRing ++ items) :
    TxMove h (.audio encoded) h'
  | pops {item : TxItem} {ring : List TxItem} (hphase : h.txPhase = .send)
      (hring : h.txRing = item :: ring) : TxMove h .tx { h with txRing := ring }

theorem perform_tx (h : Host) (nowUs : Nat) (task : HostTask) :
    (h.perform nowUs task).1.tx = h.tx ∧ (h.perform nowUs task).1.txRing = h.txRing ∧
      (h.perform nowUs task).1.txUpdates = h.txUpdates ++ (task.update h.hs).toList := by
  cases task with
  | act action =>
    cases action with
    | send dst control => cases control <;> exact ⟨rfl, rfl, (List.append_nil _).symm⟩
    | clientJoined sender name =>
      rw [perform, HostTask.update]
      cases slotOfSender sender with
      | none => exact ⟨rfl, rfl, (List.append_nil _).symm⟩
      | some slot => exact ⟨rfl, rfl, rfl⟩
    | clientLeft sender reason =>
      rw [perform, HostTask.update]
      cases slotOfSender sender with
      | none => exact ⟨rfl, rfl, (List.append_nil _).symm⟩
      | some slot => exact ⟨rfl, rfl, rfl⟩
  | ping dst | keepalive dst | bye dst => exact ⟨rfl, rfl, (List.append_nil _).symm⟩

theorem advance_tx {h h' : Host} (ha : h.advance = some h') : SameTx h h' := by
  unfold advance at ha
  split at ha
  · split at ha <;> exact Option.some.inj ha ▸ ⟨rfl, rfl, rfl⟩
  · split at ha <;> exact Option.some.inj ha ▸ ⟨rfl, rfl, rfl⟩
  · exact Option.some.inj ha ▸ ⟨rfl, rfl, rfl⟩
  · split at ha <;> exact Option.some.inj ha ▸ ⟨rfl, rfl, rfl⟩
  · split at ha <;> exact Option.some.inj ha ▸ ⟨rfl, rfl, rfl⟩
  · cases ha
  · cases ha

theorem wake_tx (h : Host) (nowMs : Nat) : SameTx h (h.wake nowMs) := by
  unfold wake
  split
  · exact ⟨rfl, rfl, rfl⟩
  · split <;> exact ⟨rfl, rfl, rfl⟩

theorem rxAdvance_tx {h h' : Host} (ha : h.rxAdvance = some h') : SameTx h h' := by
  unfold rxAdvance at ha
  split at ha
  · exact Option.some.inj ha ▸ ⟨rfl, rfl, rfl⟩
  · split at ha <;> exact Option.some.inj ha ▸ ⟨rfl, rfl, rfl⟩
  · cases ha
  · cases ha

theorem audio_tx {h h' : Host} {encoded : Vector (Option Bytes) maxClients}
    (ha : h.audio encoded = some h') : TxMove h (.audio encoded) h' := by
  obtain ⟨⟨emitted, pipeline⟩, hp, rfl⟩ := Option.map_eq_some_iff.mp ha
  refine .queues (List.length_take_le _ _) (fun item hm => ?_) rfl rfl rfl
  obtain ⟨⟨slot, bytes⟩, hmem, rfl⟩ := List.mem_map.mp (List.mem_of_mem_take hm)
  obtain ⟨⟨emitted', q⟩, hsend, he⟩ := Option.bind_eq_some_iff.mp hp
  rw [← (Prod.mk.inj (Option.some.inj he)).1] at hmem
  exact (HostPipeline.sendFrames_spec _ hsend _ hmem).1

theorem txAdvance_tx {h h' : Host} {out : Option Outgoing} (ha : h.txAdvance = some (h', out)) :
    TxMove h .tx h' := by
  have rests : ∀ {h' : Host}, (h.txPhase ≠ .send ∨ h.txRing = []) → SameTx h h' → TxMove h .tx h' :=
    fun hp hs => .rests (fun _ hl => by cases hl) (fun _ => hp) hs
  unfold txAdvance at ha
  split at ha
  · rename_i hphase
    obtain ⟨rfl, -⟩ := Prod.mk.inj (Option.some.inj ha)
    exact rests (.inl (by rw [hphase]; exact TxPhase.noConfusion)) ⟨rfl, rfl, rfl⟩
  · rename_i hphase
    split at ha
    · rename_i u us hup
      obtain ⟨rfl, -⟩ := Prod.mk.inj (Option.some.inj ha)
      exact .learns hphase hup
    · obtain ⟨rfl, -⟩ := Prod.mk.inj (Option.some.inj ha)
      exact rests (.inl (by rw [hphase]; exact TxPhase.noConfusion)) ⟨rfl, rfl, rfl⟩
  · rename_i hphase
    split at ha
    · rename_i item ring hring
      obtain ⟨rfl, -⟩ := Prod.mk.inj (Option.some.inj ha)
      exact .pops hphase hring
    · rename_i hring
      obtain ⟨rfl, -⟩ := Prod.mk.inj (Option.some.inj ha)
      exact rests (.inr hring) ⟨rfl, rfl, rfl⟩
  · cases ha

theorem txMove_of_step {h h' : Host} {l : HostLabel} {out : Option Outgoing}
    (hs : h.step l = some (h', out)) : TxMove h l h' := by
  have rests : ∀ {l : HostLabel} {h' : Host}, (∀ encoded, l ≠ .audio encoded) → l ≠ .tx →
      SameTx h h' → TxMove h l h' := fun ha ht hs => .rests ha (fun hl => absurd hl ht) hs
  cases l with
  | control nowUs =>
    rw [step] at hs
    split at hs
    · rename_i task tasks htasks
      obtain ⟨htx, hring, hup⟩ := perform_tx { h with tasks := tasks } nowUs task
      rw [Option.some.inj hs] at htx hring hup
      cases hu : task.update h.hs with
      | some u => exact .tells htasks hu htx (by rw [hup, hu]; rfl) hring
      | none =>
        refine rests (fun _ hl => by cases hl) (fun hl => by cases hl) ⟨htx, ?_, hring⟩
        rw [hup, hu]
        exact List.append_nil _
    · obtain ⟨h2, ha, he⟩ := Option.map_eq_some_iff.mp hs
      obtain ⟨rfl, -⟩ := Prod.mk.inj he
      exact rests (fun _ hl => by cases hl) (fun hl => by cases hl) (advance_tx ha)
  | wake nowMs =>
    rw [step] at hs
    split at hs
    · obtain ⟨rfl, -⟩ := Prod.mk.inj (Option.some.inj hs)
      exact rests (fun _ hl => by cases hl) (fun hl => by cases hl) (h.wake_tx nowMs)
    · cases hs
  | rx =>
    obtain ⟨h2, ha, he⟩ := Option.map_eq_some_iff.mp hs
    obtain ⟨rfl, -⟩ := Prod.mk.inj he
    exact rests (fun _ hl => by cases hl) (fun hl => by cases hl) (rxAdvance_tx ha)
  | rxTimeout =>
    rw [step] at hs
    split at hs
    · obtain ⟨rfl, -⟩ := Prod.mk.inj (Option.some.inj hs)
      exact rests (fun _ hl => by cases hl) (fun hl => by cases hl) ⟨rfl, rfl, rfl⟩
    · cases hs
  | audio encoded =>
    obtain ⟨h2, ha, he⟩ := Option.map_eq_some_iff.mp hs
    obtain ⟨rfl, -⟩ := Prod.mk.inj he
    exact audio_tx ha
  | tx => exact txAdvance_tx hs
  | shutdown =>
    obtain ⟨rfl, -⟩ := Prod.mk.inj (Option.some.inj hs)
    exact rests (fun _ hl => by cases hl) (fun hl => by cases hl) ⟨rfl, rfl, rfl⟩

/-- Datagrams that arrive, the playout and the user leave the transmit thread alone. -/
theorem next_tx {h h' : Host} {e : HostEvent} (hn : h.next e = some h') :
    (∃ l, e = .step l ∧ TxMove h l h') ∨ ((∀ l, e ≠ .step l) ∧ SameTx h h') := by
  cases e with
  | step l =>
    obtain ⟨⟨h2, out⟩, hs, rfl⟩ := Option.map_eq_some_iff.mp hn
    exact .inl ⟨l, rfl, txMove_of_step hs⟩
  | recv src bytes nowUs t3Us =>
    refine .inr ⟨fun _ hl => (by cases hl), ?_⟩
    obtain ⟨⟨h2, out⟩, hr, rfl⟩ := Option.map_eq_some_iff.mp hn
    unfold receive at hr
    split at hr
    · obtain ⟨rfl, -⟩ := Prod.mk.inj (Option.some.inj hr)
      exact ⟨rfl, rfl, rfl⟩
    · cases hr
  | read slot op => exact .inr ⟨fun _ hl => (by cases hl), Option.some.inj hn ▸ ⟨rfl, rfl, rfl⟩⟩
  | mix player setting => exact .inr ⟨fun _ hl => (by cases hl), Option.some.inj hn ▸ ⟨rfl, rfl, rfl⟩⟩

/-- Both threads are told the same. -/
theorem Move.tables {h h' : Host} {l : HostLabel} {out : Option Outgoing} (hm : Move h l h' out)
    (ht : h.rxTable = h.txTable) : h'.rxTable = h'.txTable := by
  cases hm with
  | sends => exact ht
  | executes _ _ hs =>
    rw [hs.rxTable, hs.txTable]
    exact congrArg (fun table => List.foldl AddrUpdate.apply table _) ht
  | feeds _ _ _ _ hc => exact hc.rxTable.trans (ht.trans hc.txTable.symm)
  | ticks => exact ht
  | takes => exact ht
  | polls _ hc => exact hc.rxTable.trans (ht.trans hc.txTable.symm)
  | transmits _ _ hc => exact hc.rxTable.trans (ht.trans hc.txTable.symm)
  | idles _ hc => exact hc.rxTable.trans (ht.trans hc.txTable.symm)

/-! ## The log -/

/-- What holds of the transmit thread and the log between any two events. -/
structure Posted (h : Host) (g : TransmitLog) : Prop where
  order : g.accepted = g.transmitted.map Transmission.item ++ h.txRing
  room : h.txRing.length ≤ txRingSize
  dest : ∀ item ∈ h.txRing, item.dest ≠ destPeer
  known : ∀ k a, h.tx.clients k = some a → a ∈ g.members k
  coming : ∀ slot a (hslot : slot.toNat < maxClients), .client slot (some a) ∈ h.txUpdates →
    a ∈ g.members ⟨slot.toNat, hslot⟩
  tables : h.rxTable = h.txTable
  occupant : ∀ k, g.occupant k = h.txTable k
  transmitted : ∀ t ∈ g.transmitted, (t.behind = 0 → t.dst = t.occupant) ∧
    ∀ a, t.dst = some a → ∃ k : Fin maxClients, t.item.dest = UInt8.ofNat k.val ∧ a ∈ g.members k

theorem posted_new (cfg : HostConfig) : Posted (Host.new cfg) TransmitLog.new where
  order := rfl
  room := Nat.zero_le _
  dest item hm := by cases hm
  known k a ha := by cases ha
  coming slot a hslot hm := by cases hm
  tables := rfl
  occupant _ := rfl
  transmitted t hm := by cases hm

/-- Nobody is ever struck off. -/
theorem members_subset (g : TransmitLog) (h : Host) (e : HostEvent) (h' : Host) (k : Fin maxClients) :
    g.members k ⊆ (g.observe h e h').members k := by
  intro a ha
  show a ∈ if h.joinsAt e k then _ else _
  split
  · exact List.mem_append_left _ ha
  · exact ha

/-- An update that gives a slot to somebody is about somebody who is just announced. -/
theorem told_member {h h' : Host} (hi : h.Inv) {nowUs : Nat} {task : HostTask} {tasks : List HostTask}
    (ht : h.tasks = task :: tasks) {slot : UInt8} {a : SocketAddr}
    (hu : task.update h.hs = some (.client slot (some a))) (hslot : slot.toNat < maxClients)
    (g : TransmitLog) : a ∈ (g.observe h (.step (.control nowUs)) h').members ⟨slot.toNat, hslot⟩ := by
  have hv := hi.tasks task (ht ▸ List.mem_cons_self)
  have he : h.executed (.step (.control nowUs)) = some task := congrArg List.head? ht
  cases task with
  | act action =>
    cases action with
    | send dst control => cases hu
    | clientJoined sender name =>
      obtain ⟨i, s, rfl, -, -⟩ := hv
      rw [update_clientJoined] at hu
      obtain ⟨rfl, haddr⟩ := AddrUpdate.client.inj (Option.some.inj hu)
      have hnum : ∀ i : Fin maxClients, (UInt8.ofNat i.val).toNat = i.val := by decide
      have hk : (⟨(UInt8.ofNat i.val).toNat, hslot⟩ : Fin maxClients) = i := Fin.ext (hnum i)
      show a ∈ if h.joinsAt _ _ then _ else _
      rw [hk, joinsAt, he, Option.any_some, joins_clientJoined, if_pos (decide_eq_true rfl),
        clientAddr_senderId, haddr]
      exact List.mem_append_right _ (List.mem_singleton_self a)
    | clientLeft sender reason =>
      obtain ⟨i, rfl⟩ := hv
      rw [update_clientLeft] at hu
      cases (AddrUpdate.client.inj (Option.some.inj hu)).2
  | ping d | keepalive d | bye d => cases hu

/-- An update names nobody else than it says. -/
theorem known_update {h : Host} {g : TransmitLog} (hp : Posted h g) {u : AddrUpdate}
    {us : List AddrUpdate} (hup : h.txUpdates = u :: us) {k : Fin maxClients} {a : SocketAddr}
    (ha : (h.tx.update u).clients k = some a) : a ∈ g.members k := by
  have hmem : u ∈ h.txUpdates := hup ▸ List.mem_cons_self
  rw [TxState.update_clients] at ha
  cases u with
  | client slot addr =>
    unfold AddrUpdate.apply at ha
    dsimp only at ha
    split at ha
    · rename_i hslot
      rw [Function.update_apply] at ha
      split at ha
      · rename_i hk
        rw [hk]
        exact hp.coming slot a hslot (ha ▸ hmem)
      · exact hp.known k a ha
    · exact hp.known k a ha
  | peer addr => exact hp.known k a ha

/-- Nothing is taken from the ring. -/
theorem transmitted_of_rests {h : Host} {e : HostEvent}
    (hno : e = .step .tx → h.txPhase ≠ .send ∨ h.txRing = []) (g : TransmitLog) (h' : Host) :
    (g.observe h e h').transmitted = g.transmitted := by
  unfold TransmitLog.observe
  dsimp only
  split
  · rename_i item ring hphase hring
    rcases hno rfl with hne | hnil
    · exact absurd hphase hne
    · rw [hring] at hnil
      cases hnil
  · rfl

theorem accepted_of_ne {e : HostEvent} (hno : ∀ encoded, e ≠ .step (.audio encoded)) (g : TransmitLog)
    (h h' : Host) : (g.observe h e h').accepted = g.accepted := by
  unfold TransmitLog.observe
  dsimp only
  split
  · exact absurd rfl (hno _)
  · rfl

/-- The occupants follow the announcements. -/
theorem Posted.occupant_next {h h' : Host} {g : TransmitLog} {e : HostEvent} (hp : Posted h g)
    (hi : h.Consistent) (hn : h.next e = some h') :
    h'.rxTable = h'.txTable ∧ ∀ k, (g.observe h e h').occupant k = h'.txTable k := by
  have quiet : h.executed e = none → h'.rxTable = h.rxTable → h'.txTable = h.txTable →
      h'.rxTable = h'.txTable ∧ ∀ k, (g.observe h e h').occupant k = h'.txTable k := by
    intro he hrx htx
    refine ⟨hrx.trans (hp.tables.trans htx.symm), fun k => ?_⟩
    obtain ⟨hj, hl⟩ := joinsAt_of_none he k
    show (if h.joinsAt e k then _ else if h.leavesAt e k then _ else g.occupant k) = _
    rw [hj, hl, htx]
    exact hp.occupant k
  cases e with
  | step l =>
    obtain ⟨⟨h2, out⟩, hs, rfl⟩ := Option.map_eq_some_iff.mp hn
    have hm := move_of_step hs
    have ht := hm.tables hp.tables
    refine ⟨ht, fun k => ?_⟩
    rw [← congrFun ht k, hm.rxTable hi.inv k, congrFun hp.tables k, ← hp.occupant k]
    rfl
  | recv src bytes nowUs t3Us =>
    obtain ⟨⟨h2, out⟩, hr, rfl⟩ := Option.map_eq_some_iff.mp hn
    exact quiet rfl (receive_spec hr).rxTable (receive_spec hr).txTable
  | read slot op =>
    rw [← Option.some.inj hn] at quiet ⊢
    exact quiet rfl rfl rfl
  | mix player setting =>
    rw [← Option.some.inj hn] at quiet ⊢
    exact quiet rfl rfl rfl

/-- What the transmit thread makes of an item. -/
theorem Posted.resolve {h : Host} {g : TransmitLog} (hp : Posted h g) {item : TxItem}
    (hdest : item.dest ≠ destPeer) : (h.txUpdates.length = 0 → h.tx.resolve item = g.occupantFor item) ∧
      ∀ a, h.tx.resolve item = some a →
        ∃ k : Fin maxClients, item.dest = UInt8.ofNat k.val ∧ a ∈ g.members k := by
  unfold TxState.resolve TransmitLog.occupantFor
  rw [if_neg hdest]
  split
  · rename_i hslot
    refine ⟨fun hnone => ?_, fun a ha => ⟨_, UInt8.ofNat_toNat.symm, hp.known _ a ha⟩⟩
    rw [hp.occupant, txTable, List.length_eq_zero_iff.mp hnone, List.foldl_nil]
  · exact ⟨fun _ => rfl, fun a ha => by cases ha⟩

theorem Posted.next {h h' : Host} {g : TransmitLog} {e : HostEvent} (hp : Posted h g)
    (hi : h.Consistent) (hn : h.next e = some h') : Posted h' (g.observe h e h') := by
  obtain ⟨tables, occupant⟩ := hp.occupant_next hi hn
  have sub := members_subset g h e h'
  have old : ∀ t ∈ g.transmitted, (t.behind = 0 → t.dst = t.occupant) ∧ ∀ a, t.dst = some a →
      ∃ k : Fin maxClients, t.item.dest = UInt8.ofNat k.val ∧ a ∈ (g.observe h e h').members k := by
    intro t ht
    obtain ⟨hcaught, hmember⟩ := hp.transmitted t ht
    refine ⟨hcaught, fun a ha => ?_⟩
    obtain ⟨k, hk, hm⟩ := hmember a ha
    exact ⟨k, hk, sub k hm⟩
  -- Nothing changes.
  have rests : (∀ encoded, e ≠ .step (.audio encoded)) →
      (e = .step .tx → h.txPhase ≠ .send ∨ h.txRing = []) → SameTx h h' →
        Posted h' (g.observe h e h') := by
    intro haudio htx hs
    have ht := transmitted_of_rests htx g h'
    refine ⟨?_, by rw [hs.ring]; exact hp.room, by rw [hs.ring]; exact hp.dest, ?_, ?_, tables, occupant,
      by rw [ht]; exact old⟩
    · rw [accepted_of_ne haudio, ht, hs.ring, hp.order]
    · rw [hs.tx]
      exact fun k a ha => sub k (hp.known k a ha)
    · rw [hs.updates]
      exact fun slot a hslot hm => sub _ (hp.coming slot a hslot hm)
  rcases next_tx hn with ⟨l, rfl, hm⟩ | ⟨hne, hs⟩
  · cases hm with
    | rests haudio htx hs =>
      exact rests (fun encoded he => haudio encoded (HostEvent.step.inj he))
        (fun he => htx (HostEvent.step.inj he)) hs
    | @tells nowUs task tasks u h' ht hu htx hup hring =>
      refine ⟨hring ▸ hp.order, hring ▸ hp.room, hring ▸ hp.dest, ?_, ?_, tables, occupant, old⟩
      · rw [htx]
        exact fun k a ha => sub k (hp.known k a ha)
      · rw [hup]
        intro slot a hslot hm
        rcases List.mem_append.mp hm with hm | hm
        · exact sub _ (hp.coming slot a hslot hm)
        · exact told_member hi.inv ht (List.mem_singleton.mp hm ▸ hu) hslot g
    | @learns u us hphase hup =>
      have htrans := transmitted_of_rests (e := .step .tx)
        (fun _ => .inl (by rw [hphase]; exact TxPhase.noConfusion)) g
        { h with tx := h.tx.update u, txUpdates := us }
      refine ⟨?_, hp.room, hp.dest, fun k a ha => sub k (known_update hp hup ha),
        fun slot a hslot hm => sub _ (hp.coming slot a hslot (hup ▸ List.mem_cons_of_mem _ hm)), tables,
        occupant, by rw [htrans]; exact old⟩
      rw [accepted_of_ne (fun _ he => by cases HostEvent.step.inj he), htrans]
      exact hp.order
    | @queues encoded items h' hroom hdest htx hup hring =>
      refine ⟨?_, ?_, ?_, ?_, ?_, tables, occupant, old⟩
      · show g.accepted ++ h'.txRing.drop h.txRing.length = g.transmitted.map Transmission.item ++ h'.txRing
        rw [hring, List.drop_left, hp.order, List.append_assoc]
      · have hfull := hp.room
        rw [hring, List.length_append]
        omega
      · rw [hring]
        intro item hm
        rcases List.mem_append.mp hm with hm | hm
        · exact hp.dest item hm
        · exact hdest item hm
      · rw [htx]
        exact fun k a ha => sub k (hp.known k a ha)
      · rw [hup]
        exact fun slot a hslot hm => sub _ (hp.coming slot a hslot hm)
    | @pops item ring hphase hring =>
      have htrans : (g.observe h (.step .tx) { h with txRing := ring }).transmitted =
          g.transmitted ++ [⟨item, h.tx.resolve item, g.occupantFor item, h.txUpdates.length⟩] := by
        unfold TransmitLog.observe
        dsimp only
        rw [hphase, hring]
      have hdest := hp.dest item (hring ▸ List.mem_cons_self)
      have hroom := hp.room
      rw [hring, List.length_cons] at hroom
      refine ⟨?_, (Nat.le_succ _).trans hroom, fun it hm => hp.dest it (hring ▸ List.mem_cons_of_mem _ hm),
        fun k a ha => sub k (hp.known k a ha), fun slot a hslot hm => sub _ (hp.coming slot a hslot hm),
        tables, occupant, ?_⟩
      · rw [htrans, List.map_append, List.append_assoc]
        exact hp.order.trans (by rw [hring]; rfl)
      · rw [htrans]
        intro t ht
        rcases List.mem_append.mp ht with ht | ht
        · exact old t ht
        · obtain rfl := List.mem_singleton.mp ht
          obtain ⟨hcaught, hmember⟩ := hp.resolve hdest
          refine ⟨hcaught, fun a ha => ?_⟩
          obtain ⟨k, hk, hm⟩ := hmember a ha
          exact ⟨k, hk, sub k hm⟩
  · exact rests (fun encoded he => hne _ he) (fun he => absurd he (hne _)) hs

section Runs

variable {cfg : HostConfig} {c : Host × TransmitLog → HostEvent → Prop} {es : List HostEvent}
  {w : Host × TransmitLog}

/-- With no loss simulated, what the audio callback puts into the ring leaves it once and in order. It goes
to the occupant of its slot if the transmit thread has taken in every update, and in any case only to somebody who was announced
for that slot. -/
theorem audio_transmitted (hr : Transmits cfg c es w) :
    w.2.accepted = w.2.transmitted.map Transmission.item ++ w.1.txRing ∧
      w.1.txRing.length ≤ txRingSize ∧
      ∀ t ∈ w.2.transmitted, (t.behind = 0 → t.dst = t.occupant) ∧ ∀ a, t.dst = some a →
        ∃ k : Fin maxClients, t.item.dest = UInt8.ofNat k.val ∧ a ∈ w.2.members k := by
  have hboth := hr.invariant (p := fun w => w.1.Consistent ∧ Posted w.1 w.2)
    ⟨consistent_new cfg, posted_new cfg⟩ fun es t e u _ hp _ hs => by
      obtain ⟨hs, hg⟩ := watch_eq_some.mp hs
      rw [hg]
      exact ⟨hp.1.next hs, hp.2.next hp.1 hs⟩
  exact ⟨hboth.2.order, hboth.2.room, hboth.2.transmitted⟩

/-- A mix for the player in slot 0 reaches it. -/
theorem audio_transmitted_mix : ∃ es w, Transmits Scenario.cfg.host (fun _ _ => True) es w ∧
    w.2.transmitted.map Transmission.dst = [some Scenario.strangerAddr] ∧
    w.2.accepted = w.2.transmitted.map Transmission.item ++ w.1.txRing ∧
    ∀ t ∈ w.2.transmitted, ∀ a, t.dst = some a →
      ∃ k : Fin maxClients, t.item.dest = UInt8.ofNat k.val ∧ a ∈ w.2.members k := by
  obtain ⟨w, hr, hw⟩ := Transmits.of_test Scenario.cfg.host
    (Scenario.strangerIn ++ .step (.audio #v[some [1, 2], none, none, none]) ::
      List.replicate 4 (.step .tx))
    (fun _ _ => true)
    (fun w => decide (w.2.transmitted.map Transmission.dst = [some Scenario.strangerAddr]))
    (fun _ _ _ => trivial) (by decide +kernel)
  obtain ⟨horder, -, hsent⟩ := audio_transmitted hr
  exact ⟨_, w, hr, of_decide_eq_true hw, horder, fun t ht => (hsent t ht).2⟩

end Runs

end Host

end OnlineJam
