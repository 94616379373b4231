import OnlineJam.Core.SessionLog
import OnlineJam.Proofs.HostProofs

/-!
# Host process: the address tables

The receive and the transmit thread work with copies of the slot table that lag behind it. With the
updates on their way and those still to be sent, the copies agree with it.
-/

namespace OnlineJam

open OnlineJam.Lib
open HostHandshake

/-- The updates that some tasks will send. -/
def told (hs : HostHandshake) (tasks : List HostTask) : List AddrUpdate :=
  tasks.filterMap (HostTask.update hs)

theorem apply_client (table : Fin maxClients → Option SocketAddr) (i : Fin maxClients)
    (addr : Option SocketAddr) :
    AddrUpdate.apply table (.client (UInt8.ofNat i.val) addr) = Function.update table i addr := by
  have hi : ∀ i : Fin maxClients, (UInt8.ofNat i.val).toNat = i.val := by decide
  unfold AddrUpdate.apply
  dsimp only
  rw [dif_pos (by rw [hi]; exact i.isLt)]
  congr 1
  exact Fin.ext (hi i)

theorem update_clientJoined (hs : HostHandshake) (i : Fin maxClients) (name : String) :
    HostTask.update hs (.act (.clientJoined (senderId i) name)) =
      some (.client (UInt8.ofNat i.val) (hs.addrAt i)) := by
  rw [HostTask.update, slotOfSender_senderId, Option.map_some, clientAddr_senderId]

theorem update_clientLeft (hs : HostHandshake) (i : Fin maxClients) (reason : LeaveReason) :
    HostTask.update hs (.act (.clientLeft (senderId i) reason)) =
      some (.client (UInt8.ofNat i.val) none) := by
  rw [HostTask.update, slotOfSender_senderId, Option.map_some]

/-- Tasks that send packets only tell nothing. -/
theorem told_sends {hs : HostHandshake} {tasks : List HostTask}
    (h : ∀ task ∈ tasks, HostTask.update hs task = none) : told hs tasks = [] :=
  List.filterMap_eq_nil_iff.mpr h

/-- What is told depends on the addresses only. -/
theorem told_congr {hs hs' : HostHandshake} (hk : Keeps hs hs') (tasks : List HostTask) :
    told hs' tasks = told hs tasks := by
  have haddr : ∀ sender, hs'.clientAddr sender = hs.clientAddr sender := by
    intro sender
    rw [clientAddr_eq, clientAddr_eq, funext hk.addrAt]
  refine List.filterMap_congr fun task _ => ?_
  cases task with
  | act action => cases action <;> simp only [HostTask.update, haddr]
  | _ => rfl

/-- After updates that free slots, exactly those are free. -/
theorem foldl_frees {us : List AddrUpdate}
    (h : ∀ u ∈ us, ∃ i : Fin maxClients, u = .client (UInt8.ofNat i.val) none)
    (table : Fin maxClients → Option SocketAddr) (k : Fin maxClients) :
    us.foldl AddrUpdate.apply table k =
      if AddrUpdate.client (UInt8.ofNat k.val) none ∈ us then none else table k := by
  have hinj : ∀ i j : Fin maxClients, UInt8.ofNat i.val = UInt8.ofNat j.val → i = j := by decide
  induction us generalizing table with
  | nil => simp
  | cons u us ih =>
    obtain ⟨i, rfl⟩ := h u List.mem_cons_self
    rw [List.foldl_cons, ih (fun u hu => h u (List.mem_cons_of_mem _ hu)), apply_client]
    by_cases hk : k = i
    · subst hk
      rw [Function.update_self, if_pos List.mem_cons_self, ite_self]
    · rw [Function.update_of_ne hk]
      have hne : AddrUpdate.client (UInt8.ofNat k.val) none ≠ .client (UInt8.ofNat i.val) none :=
        fun he => hk (hinj _ _ (AddrUpdate.client.inj he).1)
      simp only [List.mem_cons, hne, false_or]

/-- Taking slots away tells the other threads so. -/
theorem foldl_told_leaves {hs hs' : HostHandshake} {actions : List HostAction}
    (h : Leaves hs actions hs') :
    (told hs' (actions.map HostTask.act)).foldl AddrUpdate.apply hs.addrAt = hs'.addrAt := by
  have hmem : ∀ u, u ∈ told hs' (actions.map HostTask.act) → ∃ i reason,
      .clientLeft (senderId i) reason ∈ actions ∧ hs'.slots i = none ∧
        u = .client (UInt8.ofNat i.val) none := by
    intro u hu
    obtain ⟨task, htask, hup⟩ := List.mem_filterMap.mp hu
    obtain ⟨a, ha, rfl⟩ := List.mem_map.mp htask
    rcases h.announced a ha with ⟨dst, control, rfl⟩ | ⟨i, reason, rfl, hnone⟩
    · cases hup
    · rw [update_clientLeft] at hup
      exact ⟨i, reason, ha, hnone, (Option.some.inj hup).symm⟩
  funext k
  rw [foldl_frees]
  · split
    · rename_i hk
      obtain ⟨i, reason, _, hnone, hu⟩ := hmem _ hk
      have hinj : ∀ i j : Fin maxClients, UInt8.ofNat i.val = UInt8.ofNat j.val → i = j := by decide
      rw [hinj k i (AddrUpdate.client.inj hu).1]
      exact (addrAt_eq_none.mpr hnone).symm
    · rename_i hk
      rcases h.addrAt k with hkeep | ⟨reason, hleft⟩
      · exact hkeep.symm
      · exact absurd (List.mem_filterMap.mpr
          ⟨_, List.mem_map_of_mem hleft, update_clientLeft hs' k reason⟩) hk
  · intro u hu
    obtain ⟨i, _, _, _, hu⟩ := hmem u hu
    exact ⟨i, hu⟩

theorem update_send (hs : HostHandshake) {a : HostAction} (h : ∃ dst control, a = .send dst control) :
    HostTask.update hs (.act a) = none := by
  obtain ⟨dst, control, rfl⟩ := h
  rfl

theorem told_of_sends (hs : HostHandshake) {actions : List HostAction}
    (h : ∀ a ∈ actions, ∃ dst control, a = .send dst control) :
    told hs (actions.map HostTask.act) = [] := by
  refine told_sends fun task htask => ?_
  obtain ⟨a, ha, rfl⟩ := List.mem_map.mp htask
  exact update_send hs (h a ha)

/-- Giving a slot away tells the other threads so. -/
theorem foldl_told_onHello (hs : HostHandshake) (addr : SocketAddr) (hello : Control) (nowMs : Nat) :
    (told (hs.onHello addr hello nowMs).2 ((hs.onHello addr hello nowMs).1.map HostTask.act)).foldl
      AddrUpdate.apply hs.addrAt = (hs.onHello addr hello nowMs).2.addrAt := by
  rcases onHello_joins hs addr hello nowMs with ⟨hsends, hk⟩ |
    ⟨control, k, name, rest, hactions, hrest, _, haddr⟩
  · rw [told_of_sends _ hsends]
    exact (funext hk.addrAt).symm
  · have htold : told (hs.onHello addr hello nowMs).2
        ((hs.onHello addr hello nowMs).1.map HostTask.act) =
          [.client (UInt8.ofNat k.val) ((hs.onHello addr hello nowMs).2.addrAt k)] := by
      have hnil := told_of_sends (hs.onHello addr hello nowMs).2 hrest
      rw [told] at hnil
      rw [hactions, told, List.map_cons, List.map_cons, List.filterMap_cons, List.filterMap_cons,
        update_clientJoined, hnil]
      rfl
    rw [htold, List.foldl_cons, List.foldl_nil, apply_client]
    funext i
    rw [Function.update_apply, haddr k, if_pos rfl, haddr i]

theorem foldl_told_dispatch (hs : HostHandshake) (sessionId : UInt16) (ev : CtrlEvent)
    (nowMs : Nat) :
    (told (Host.dispatch hs sessionId ev nowMs).2
      ((Host.dispatch hs sessionId ev nowMs).1.map HostTask.act)).foldl AddrUpdate.apply hs.addrAt =
        (Host.dispatch hs sessionId ev nowMs).2.addrAt := by
  obtain ⟨heard, hk, _, hd⟩ := Host.dispatch_heard hs sessionId ev nowMs
  rw [← funext hk.addrAt]
  generalize Host.dispatch hs sessionId ev nowMs = r at hd ⊢
  cases hd with
  | hello => exact foldl_told_onHello heard _ _ _
  | ack => exact (funext (keeps_onAck heard _ _ _).addrAt).symm
  | bye => exact foldl_told_leaves (removeWhere_leaves heard _ _)
  | other => rfl

namespace Host

/-- The other threads' tables lag behind the slot table by what is on its way to them. -/
structure Mirrored (h : Host) : Prop where
  rx : (told h.hs h.tasks).foldl AddrUpdate.apply h.rxTable = h.hs.addrAt
  tx : (told h.hs h.tasks).foldl AddrUpdate.apply h.txTable = h.hs.addrAt

theorem mirrored_new (cfg : HostConfig) : (Host.new cfg).Mirrored := ⟨rfl, rfl⟩

theorem ForPeer.update {hs : HostHandshake} {task : HostTask} (h : ForPeer hs task) :
    task.update hs = none := by
  obtain ⟨dst, _, rfl | rfl | rfl⟩ := h <;> rfl

theorem update_of_packet {hs : HostHandshake} {task : HostTask} {nowUs : Nat}
    {p : SocketAddr × Control} (h : task.packet nowUs = some p) : task.update hs = none := by
  cases task with
  | act action => cases action with
    | send dst control => rfl
    | clientJoined sender name => cases h
    | clientLeft sender reason => cases h
  | _ => rfl

/-- A step sends some updates to both threads, and what is still to be sent leads from there to the
slot table. -/
theorem Move.tells {h h' : Host} {l : HostLabel} {out : Option Outgoing} (hm : Move h l h' out) :
    ∃ us : List AddrUpdate, h'.rxTable = us.foldl AddrUpdate.apply h.rxTable ∧
      h'.txTable = us.foldl AddrUpdate.apply h.txTable ∧
      ∀ table, (told h.hs h.tasks).foldl AddrUpdate.apply table = h.hs.addrAt →
        (told h'.hs h'.tasks).foldl AddrUpdate.apply (us.foldl AddrUpdate.apply table) =
          h'.hs.addrAt := by
  cases hm with
  | sends ht hp =>
    refine ⟨[], rfl, rfl, fun table htable => ?_⟩
    rw [ht, told, List.filterMap_cons, update_of_packet hp] at htable
    rw [List.foldl_nil, told_congr (keeps_afterSend _ _ _ _), funext (keeps_afterSend _ _ _ _).addrAt]
    exact htable
  | @executes nowUs task tasks h' ht hp hs =>
    refine ⟨(task.update h.hs).toList, hs.rxTable, hs.txTable, fun table htable => ?_⟩
    rw [ht, told, List.filterMap_cons] at htable
    rw [hs.hs, hs.tasks, told]
    cases hu : task.update h.hs with
    | none =>
      rw [hu] at htable
      exact htable
    | some u =>
      rw [hu] at htable
      exact htable
  | feeds ht hphase ht' hs hc =>
    refine ⟨[], hc.rxTable, hc.txTable, fun table htable => ?_⟩
    rw [ht] at htable
    rw [ht', hs, funext (keeps_feed _ _ _ _).addrAt]
    exact htable
  | ticks ht hphase =>
    refine ⟨[], rfl, rfl, fun table htable => ?_⟩
    rw [ht] at htable
    obtain rfl : table = h.hs.addrAt := htable
    exact foldl_told_leaves (tick_leaves _ _)
  | takes ht hev =>
    refine ⟨[], rfl, rfl, fun table htable => ?_⟩
    rw [ht] at htable
    obtain rfl : table = h.hs.addrAt := htable
    exact foldl_told_dispatch _ _ _ _
  | polls ht hc ht' =>
    refine ⟨[], hc.rxTable, hc.txTable, fun table htable => ?_⟩
    rw [ht] at htable
    rw [hc.hs, told_sends fun task htask => (ht' task htask).update]
    exact htable
  | transmits hring hdst hc ht' =>
    refine ⟨[], hc.rxTable, hc.txTable, fun table htable => ?_⟩
    rw [hc.hs, ht']
    exact htable
  | idles _ hc ht' =>
    refine ⟨[], hc.rxTable, hc.txTable, fun table htable => ?_⟩
    rw [hc.hs, ht']
    exact htable

theorem Move.mirrored {h h' : Host} {l : HostLabel} {out : Option Outgoing} (hm : Move h l h' out)
    (hi : h.Mirrored) : h'.Mirrored := by
  obtain ⟨us, hrx, htx, htable⟩ := hm.tells
  refine ⟨?_, ?_⟩
  · rw [hrx]
    exact htable _ hi.rx
  · rw [htx]
    exact htable _ hi.tx

theorem Received.mirrored {h h' : Host} {src : SocketAddr} {bytes : Bytes} {out : Option Outgoing}
    (hr : Received h src bytes h' out) (hi : h.Mirrored) : h'.Mirrored where
  rx := by
    rw [hr.hs, hr.tasks, hr.rxTable]
    exact hi.rx
  tx := by
    rw [hr.hs, hr.tasks, hr.txTable]
    exact hi.tx

/-- The ring holds audio for slots. -/
def RingInv (h : Host) : Prop := ∀ item ∈ h.txRing, item.dest ≠ destPeer ∧ NoControl item.bytes

theorem Move.ring {h h' : Host} {l : HostLabel} {out : Option Outgoing} (hm : Move h l h' out)
    (hi : h.RingInv) : h'.RingInv := by
  have calm : ∀ {h1 : Host}, Calm h1 h' → h1.txRing = h.txRing → h'.RingInv := by
    intro h1 hc h1ring item hitem
    rcases hc.ring item hitem with hold | hnew
    · exact hi item (h1ring ▸ hold)
    · exact hnew
  cases hm with
  | sends ht hp => exact hi
  | executes ht hp hs => exact fun item hitem => hi item (hs.ring ▸ hitem)
  | feeds ht hphase ht' hs hc => exact calm hc rfl
  | ticks ht hphase => exact hi
  | takes ht hev => exact hi
  | polls ht hc ht' => exact calm hc rfl
  | transmits hring hdst hc ht' => exact calm hc rfl
  | idles _ hc ht' => exact calm hc rfl

theorem update_of_changesSlot (hs : HostHandshake) {task : HostTask}
    (h : task.changesSlot = false) : task.update hs = none := by
  cases task with
  | act action => cases action with
    | send dst control => rfl
    | clientJoined sender name => cases h
    | clientLeft sender reason => cases h
  | _ => rfl

/-- A transmit thread that is not behind sends to addresses with a slot only. -/
theorem Mirrored.resolve {h : Host} (hm : h.Mirrored) (hb : h.txBehind = false) {item : TxItem}
    (hdest : item.dest ≠ destPeer) {dst : SocketAddr} (hdst : h.tx.resolve item = some dst) :
    ∃ i, h.hs.addrAt i = some dst := by
  obtain ⟨hupdates, htasks⟩ := Bool.or_eq_false_iff.mp hb
  rw [Bool.not_eq_false', List.isEmpty_iff] at hupdates
  have htold : told h.hs h.tasks = [] := by
    refine told_sends fun task htask => update_of_changesSlot _ ?_
    exact Bool.eq_false_iff.mpr (List.any_eq_false.mp htasks task htask)
  have htx := hm.tx
  rw [htold, List.foldl_nil, txTable, hupdates, List.foldl_nil] at htx
  unfold TxState.resolve at hdst
  rw [if_neg hdest] at hdst
  split at hdst
  · exact ⟨_, by rw [← htx]; exact hdst⟩
  · cases hdst

end Host

end OnlineJam
