import OnlineJam.Core.HostRun
import OnlineJam.Core.Scenario
import OnlineJam.Proofs.TableProofs

/-!
# Host process: the copies of the slot table

The receive thread, the transmit thread and the audio callback each have a copy of who has a slot. When
the control loop has executed what its handshake machine asked for, the copies are those of the slot
table, up to the updates that still are on their way.
-/

namespace OnlineJam

open OnlineJam.Lib
open HostHandshake

theorem foldl_update_clientAddrs (us : List AddrUpdate) (rx : RxState) :
    (us.foldl RxState.update rx).clientAddrs = us.foldl AddrUpdate.apply rx.clientAddrs := by
  induction us generalizing rx with
  | nil => rfl
  | cons u us ih => rw [List.foldl_cons, List.foldl_cons, ih, RxState.update_clientAddrs]

theorem foldl_update_clients (us : List AddrUpdate) (tx : TxState) :
    (us.foldl TxState.update tx).clients = us.foldl AddrUpdate.apply tx.clients := by
  induction us generalizing tx with
  | nil => rfl
  | cons u us ih => rw [List.foldl_cons, List.foldl_cons, ih, TxState.update_clients]

namespace Host

/-- The audio callback's flags say for which slots the receive thread is told an address. -/
def Flagged (h : Host) : Prop := ∀ k, (h.shared.clients k).active = (h.rxTable k).isSome

theorem measure_active (h : Host) (ev : CtrlEvent) (k : Fin maxClients) :
    ((h.measure ev).clients k).active = (h.shared.clients k).active := by
  unfold measure
  split
  · rename_i slot _ _
    show (Function.update h.shared.clients slot _ k).active = _
    by_cases hk : k = slot
    · rw [hk, Function.update_self]
    · rw [Function.update_of_ne hk]
  · rfl

theorem setClient_active (shared : HostShared) (i : Fin maxClients) (stream : StreamShared)
    (k : Fin maxClients) : ((shared.setClient i stream).clients k).active =
      if k = i then stream.active else (shared.clients k).active := by
  show (Function.update shared.clients i stream k).active = _
  rw [Function.update_apply]
  split <;> rfl

/-- Executing a task that sends nothing switches the flag together with the address. -/
theorem flagged_perform {h : Host} {nowUs : Nat} {task : HostTask} (hv : task.Vouched h.hs)
    (hp : task.packet nowUs = none) (hf : h.Flagged) : (h.perform nowUs task).1.Flagged := by
  have hs := (perform_silent (h := h) hp).1
  intro k
  rw [hs.rxTable]
  cases task with
  | act action =>
    cases action with
    | send d c => cases hp
    | clientJoined sender name =>
      obtain ⟨i, s, rfl, hi, _⟩ := hv
      rw [update_clientJoined, addrAt_of_slots hi, Option.toList_some, List.foldl_cons, List.foldl_nil,
        apply_client, Function.update_apply, perform, slotOfSender_senderId]
      refine (setClient_active _ _ _ k).trans ?_
      split
      · rfl
      · exact hf k
    | clientLeft sender reason =>
      obtain ⟨i, rfl⟩ := hv
      rw [update_clientLeft, Option.toList_some, List.foldl_cons, List.foldl_nil,
        apply_client, Function.update_apply, perform, slotOfSender_senderId]
      refine (setClient_active _ _ _ k).trans ?_
      split
      · rfl
      · exact hf k
  | ping d | keepalive d | bye d => cases hp

theorem Move.flagged {h h' : Host} {l : HostLabel} {out : Option Outgoing} (hm : Move h l h' out)
    (hi : h.Inv) (hf : h.Flagged) : h'.Flagged := by
  have calm : ∀ {h1 : Host}, Calm h1 h' → h1.shared = h.shared → h1.rxTable = h.rxTable → h'.Flagged := by
    intro h1 hc hshared htable k
    rw [hc.shared, hc.rxTable, hshared, htable]
    exact hf k
  cases hm with
  | sends ht hp => exact hf
  | executes ht hp hs he =>
    rw [he]
    exact flagged_perform (hi.tasks _ (ht ▸ List.mem_cons_self)) hp hf
  | feeds ht hphase ht' hs hc => exact calm hc rfl rfl
  | ticks ht hphase => exact hf
  | takes ht hev => exact fun k => (h.measure_active _ k).trans (hf k)
  | polls ht hc ht' => exact calm hc rfl rfl
  | transmits hring hdst hc ht' => exact calm hc rfl rfl
  | idles _ hc ht' => exact calm hc rfl rfl

/-- What holds of the host between any two events. -/
structure Consistent (h : Host) : Prop where
  inv : h.Inv
  mirrored : h.Mirrored
  flagged : h.Flagged

theorem consistent_new (cfg : HostConfig) : (Host.new cfg).Consistent :=
  ⟨inv_new cfg, mirrored_new cfg, fun _ => rfl⟩

theorem Received.consistent {h h' : Host} {src : SocketAddr} {bytes : Bytes} {out : Option Outgoing}
    (hr : Received h src bytes h' out) (hi : h.Consistent) : h'.Consistent where
  inv := ⟨hr.hs ▸ hi.inv.distinct, by rw [hr.hs, hr.sessionId, hi.inv.sessionId],
    by rw [hr.hs, hr.tasks]; exact hi.inv.tasks⟩
  mirrored := hr.mirrored hi.mirrored
  flagged := by
    intro k
    rw [hr.rxTable, ← hi.flagged k]
    rcases hr.clients k with he | ⟨_, he⟩
    · rw [he]
    · exact he

theorem Consistent.next {h h' : Host} {e : HostEvent} (hi : h.Consistent) (he : h.next e = some h') :
    h'.Consistent := by
  cases e with
  | step l =>
    obtain ⟨⟨h2, out⟩, hs, rfl⟩ := Option.map_eq_some_iff.mp he
    have hm := move_of_step hs
    exact ⟨hm.inv hi.inv, hm.mirrored hi.mirrored, hm.flagged hi.inv hi.flagged⟩
  | recv src bytes nowUs t3Us =>
    obtain ⟨⟨h2, out⟩, hr, rfl⟩ := Option.map_eq_some_iff.mp he
    exact (receive_spec hr).consistent hi
  | read slot op =>
    rw [← Option.some.inj he]
    refine ⟨⟨hi.inv.distinct, hi.inv.sessionId, hi.inv.tasks⟩, ⟨hi.mirrored.rx, hi.mirrored.tx⟩, fun k => ?_⟩
    refine (setClient_active _ _ _ k).trans ?_
    split
    · rename_i hk
      rw [← hk]
      exact hi.flagged k
    · exact hi.flagged k
  | mix player setting =>
    rw [← Option.some.inj he]
    refine ⟨⟨hi.inv.distinct, ?_, hi.inv.tasks⟩, ⟨hi.mirrored.rx, hi.mirrored.tx⟩, fun k => ?_⟩
    · cases setting <;> exact hi.inv.sessionId
    · cases setting <;> exact hi.flagged k

theorem Runs.consistent {cfg : HostConfig} {c : Host → HostEvent → Prop} {es : List HostEvent}
    {h : Host} (hr : Runs cfg c es h) : h.Consistent :=
  hr.invariant (consistent_new cfg) fun _ _ _ _ _ hi _ hs => hi.next hs

/-- Whenever the control loop has nothing left to execute, as at the end of every iteration, the copies
are those of the slot table, up to what is still on its way. -/
theorem mirrors_follow {cfg : HostConfig} {c : Host → HostEvent → Prop} {es : List HostEvent}
    {h : Host} (hr : Runs cfg c es h) (ht : h.tasks = []) :
    (h.updates.foldl RxState.update h.rx).clientAddrs = h.hs.addrAt ∧
      (h.txUpdates.foldl TxState.update h.tx).clients = h.hs.addrAt ∧
      ∀ k, (h.shared.clients k).active = (h.hs.slots k).isSome := by
  have hi := hr.consistent
  have hrx := hi.mirrored.rx
  have htx := hi.mirrored.tx
  rw [ht] at hrx htx
  refine ⟨(foldl_update_clientAddrs _ _).trans hrx, (foldl_update_clients _ _).trans htx, fun k => ?_⟩
  rw [hi.flagged k, show h.rxTable = h.hs.addrAt from hrx, addrAt, Option.isSome_map]

/-- Somebody has joined, and neither thread knows yet. -/
theorem mirrors_follow_join : ∃ es h, Runs Scenario.cfg.host (fun _ _ => True) es h ∧
    (h.hs.slots 0).isSome = true ∧ h.rx.clientAddrs 0 = none ∧
    (h.updates.foldl RxState.update h.rx).clientAddrs = h.hs.addrAt ∧
    (h.txUpdates.foldl TxState.update h.tx).clients = h.hs.addrAt ∧
    ∀ k, (h.shared.clients k).active = (h.hs.slots k).isSome := by
  obtain ⟨h, hr, ht⟩ := Runs.of_test Scenario.cfg.host Scenario.strangerJoins
    (fun h => h.tasks.isEmpty && (h.hs.slots 0).isSome && (h.rx.clientAddrs 0).isNone)
    (by decide +kernel)
  simp only [Bool.and_eq_true, List.isEmpty_iff, Option.isNone_iff_eq_none] at ht
  exact ⟨_, h, hr, ht.1.2, ht.2, mirrors_follow hr ht.1.1⟩

end Host

end OnlineJam
