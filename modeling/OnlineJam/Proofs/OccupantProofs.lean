import OnlineJam.Core.HostLog
import OnlineJam.Proofs.MirrorProofs

/-!
# Host process: whose frames a slot stores

The receive thread works with a table that lags behind what the control loop has announced. A frame of
somebody else is stored for a player only while an update that gives away the slot is on its way.
-/

namespace OnlineJam

open OnlineJam.Lib
open HostHandshake

namespace Host

section Watched

variable {cfg : HostConfig} {c : Host × HostLog → HostEvent → Prop} {es : List HostEvent}
  {w : Host × HostLog}

/-- Induction over an observed run. -/
theorem Watched.induction {p : Host → HostLog → Prop} (hr : Watched cfg c es w)
    (h0 : p (Host.new cfg) HostLog.new)
    (hstep : ∀ h g e h', h.Consistent → p h g → c (h, g) e → h.next e = some h' →
      p h' (HostLog.observe g h e h')) : p w.1 w.2 := by
  have hboth := hr.invariant (p := fun w => w.1.Consistent ∧ p w.1 w.2) ⟨consistent_new cfg, h0⟩
    fun es t e u _ hp hc hs => by
      obtain ⟨hs, hg⟩ := watch_eq_some.mp hs
      rw [hg]
      exact ⟨hp.1.next hs, hstep t.1 t.2 e u.1 hp.1 hp.2 hc hs⟩
  exact hboth.2

/-! ## Announcements -/

theorem joinsAt_of_none {h : Host} {e : HostEvent} (he : h.executed e = none) (k : Fin maxClients) :
    h.joinsAt e k = false ∧ h.leavesAt e k = false := by
  rw [joinsAt, leavesAt, he]
  exact ⟨rfl, rfl⟩

theorem joins_of_packet {task : HostTask} {nowUs : Nat} {p : SocketAddr × Control}
    (hp : task.packet nowUs = some p) (k : Fin maxClients) :
    task.joins k = false ∧ task.leaves k = false := by
  cases task with
  | act action => cases action with
    | send dst control => exact ⟨rfl, rfl⟩
    | clientJoined sender name => cases hp
    | clientLeft sender reason => cases hp
  | _ => exact ⟨rfl, rfl⟩

theorem joins_clientJoined (i k : Fin maxClients) (name : String) :
    HostTask.joins k (.act (.clientJoined (senderId i) name)) = decide (k = i) := by
  rw [HostTask.joins, slotOfSender_senderId]
  exact decide_eq_decide.mpr (Option.some_inj.trans eq_comm)

theorem leaves_clientLeft (i k : Fin maxClients) (reason : LeaveReason) :
    HostTask.leaves k (.act (.clientLeft (senderId i) reason)) = decide (k = i) := by
  rw [HostTask.leaves, slotOfSender_senderId]
  exact decide_eq_decide.mpr (Option.some_inj.trans eq_comm)

/-- What the receive thread is told about a slot follows the announcements. -/
theorem Move.rxTable {h h' : Host} {l : HostLabel} {out : Option Outgoing} (hm : Move h l h' out)
    (hi : h.Inv) (k : Fin maxClients) : h'.rxTable k =
      if h.joinsAt (.step l) k then h.hs.clientAddr (senderId k)
      else if h.leavesAt (.step l) k then none else h.rxTable k := by
  -- Nothing is announced.
  have quiet : h.executed (.step l) = none → h'.rxTable = h.rxTable → h'.rxTable k =
      if h.joinsAt (.step l) k then h.hs.clientAddr (senderId k)
      else if h.leavesAt (.step l) k then none else h.rxTable k := by
    intro he ht
    obtain ⟨hj, hl⟩ := joinsAt_of_none he k
    rw [hj, hl, ht]
    rfl
  have idle : h.tasks = [] → h.executed (.step l) = none := by
    intro ht
    cases l <;> first | rfl | exact congrArg List.head? ht
  cases hm with
  | @sends nowUs task tasks dst control ht hp =>
    have he : h.executed (.step (.control nowUs)) = some task := congrArg List.head? ht
    obtain ⟨hj, hl⟩ := joins_of_packet hp k
    rw [joinsAt, leavesAt, he, Option.any_some, Option.any_some, hj, hl]
    rfl
  | @executes nowUs task tasks h' ht hp hs he =>
    have he : h.executed (.step (.control nowUs)) = some task := congrArg List.head? ht
    have hv := hi.tasks task (ht ▸ List.mem_cons_self)
    rw [joinsAt, leavesAt, he, Option.any_some, Option.any_some, hs.rxTable]
    cases task with
    | act action =>
      cases action with
      | send dst control => cases hp
      | clientJoined sender name =>
        obtain ⟨i, s, rfl, hslot, _⟩ := hv
        rw [update_clientJoined, Option.toList_some, List.foldl_cons, List.foldl_nil, apply_client,
          Function.update_apply, joins_clientJoined, clientAddr_senderId]
        by_cases hk : k = i
        · rw [if_pos hk, hk, if_pos (decide_eq_true rfl)]
        · rw [if_neg hk, if_neg (by rw [decide_eq_true_iff]; exact hk)]
          rfl
      | clientLeft sender reason =>
        obtain ⟨i, rfl⟩ := hv
        rw [update_clientLeft, Option.toList_some, List.foldl_cons, List.foldl_nil, apply_client,
          Function.update_apply, leaves_clientLeft, show HostTask.joins k _ = false from rfl,
          if_neg Bool.false_ne_true]
        by_cases hk : k = i
        · rw [if_pos hk, hk, if_pos (decide_eq_true rfl)]
        · rw [if_neg hk, if_neg (by rw [decide_eq_true_iff]; exact hk)]
          rfl
    | ping d | keepalive d | bye d => cases hp
  | feeds ht hphase ht' hs hc => exact quiet (idle ht) hc.rxTable
  | ticks ht hphase => exact quiet (idle ht) rfl
  | takes ht hev => exact quiet rfl rfl
  | polls ht hc ht' => exact quiet (idle ht) hc.rxTable
  | transmits hring hdst hc ht' => exact quiet rfl hc.rxTable
  | idles hl hc ht' =>
    refine quiet ?_ hc.rxTable
    cases l with
    | control nowUs => exact absurd rfl (hl nowUs)
    | _ => rfl

/-- The receive thread is told the occupants. -/
theorem Watched.occupant (hr : Watched cfg c es w) : ∀ k, w.2.occupant k = w.1.rxTable k := by
  refine hr.induction (p := fun h g => ∀ k, g.occupant k = h.rxTable k) (fun _ => rfl) ?_
  intro h g e h' hcons hp _ hs k
  have quiet : h.executed e = none → h'.rxTable k = h.rxTable k →
      (HostLog.observe g h e h').occupant k = h'.rxTable k := by
    intro he ht
    obtain ⟨hj, hl⟩ := joinsAt_of_none he k
    show (if h.joinsAt e k then _ else if h.leavesAt e k then _ else g.occupant k) = _
    rw [hj, hl, ht]
    exact hp k
  cases e with
  | step l =>
    obtain ⟨⟨h2, out⟩, hl, rfl⟩ := Option.map_eq_some_iff.mp hs
    rw [(move_of_step hl).rxTable hcons.inv k, ← hp k]
    rfl
  | recv src bytes nowUs t3Us =>
    obtain ⟨⟨h2, out⟩, hrecv, rfl⟩ := Option.map_eq_some_iff.mp hs
    exact quiet rfl (congrFun (receive_spec hrecv).rxTable k)
  | read slot op =>
    rw [← Option.some.inj hs] at quiet ⊢
    exact quiet rfl rfl
  | mix player setting =>
    rw [← Option.some.inj hs] at quiet ⊢
    exact quiet rfl rfl

/-! ## Frames -/

/-- When the receive thread takes audio for a slot, the updates that still are on their way to it leave
the slot to the source of the audio or to nobody. -/
def TakesUpToDate (w : Host × HostLog) : HostEvent → Prop
  | .recv src bytes _ _ => ∀ k, w.1.TakesAudio src bytes k →
      w.1.rxTable k = some src ∨ w.1.rxTable k = none
  | _ => True

/-- Then frames are stored for the occupant of a slot only. -/
theorem own_frames (hr : Watched cfg TakesUpToDate es w) {k : Fin maxClients} {addr : SocketAddr}
    (hk : w.2.occupant k = some addr) : ∀ src ∈ w.2.stored k, src = addr := by
  suffices hall : ∀ k addr, w.1.rxTable k = some addr → ∀ src ∈ w.2.stored k, src = addr from
    hall k addr ((hr.occupant k).symm.trans hk)
  refine hr.induction (p := fun h g => ∀ k addr, h.rxTable k = some addr → ∀ src ∈ g.stored k, src = addr)
    (fun k addr hk => by cases hk) ?_
  intro h g e h' hcons hp hc hs k addr hk src hsrc
  have hstored : (HostLog.observe g h e h').stored k =
      if h.joinsAt e k ∨ h.leavesAt e k then [] else match e with
        | .recv src _ _ _ =>
          if (h'.shared.clients k).jb.stats.received = (h.shared.clients k).jb.stats.received then
            g.stored k
          else g.stored k ++ [src]
        | _ => g.stored k := rfl
  rw [hstored] at hsrc
  split at hsrc
  · cases hsrc
  rename_i hann
  rw [not_or, Bool.not_eq_true, Bool.not_eq_true] at hann
  cases e with
  | step l =>
    obtain ⟨⟨h2, out⟩, hl, rfl⟩ := Option.map_eq_some_iff.mp hs
    rw [(move_of_step hl).rxTable hcons.inv k, hann.1, hann.2] at hk
    exact hp k addr hk src hsrc
  | recv from' bytes nowUs t3Us =>
    obtain ⟨⟨h2, out⟩, hrecv, rfl⟩ := Option.map_eq_some_iff.mp hs
    have hrec := receive_spec hrecv
    rw [hrec.rxTable] at hk
    dsimp only at hsrc
    split at hsrc
    · exact hp k addr hk src hsrc
    · rename_i hchange
      rcases List.mem_append.mp hsrc with hold | hnew
      · exact hp k addr hk src hold
      · rw [List.mem_singleton.mp hnew]
        rcases hrec.jb k with hsame | haudio
        · rw [hsame] at hchange
          exact absurd rfl hchange
        · rcases hc k haudio with ht | ht
          · exact Option.some.inj (ht.symm.trans hk)
          · rw [ht] at hk
            cases hk
  | read slot op =>
    rw [← Option.some.inj hs] at hk
    exact hp k addr hk src hsrc
  | mix player setting =>
    rw [← Option.some.inj hs] at hk
    exact hp k addr hk src hsrc

end Watched

/-- The test for `TakesUpToDate`. -/
def isUpToDate (w : Host × HostLog) : HostEvent → Bool
  | .recv src _ _ _ => indices.all fun k =>
    w.1.rx.clientAddrs k ≠ some src || w.1.rxTable k = some src
  | _ => true

theorem upToDate_of_test (w : Host × HostLog) (e : HostEvent) (he : isUpToDate w e = true) :
    TakesUpToDate w e := by
  cases e with
  | recv src bytes nowUs t3Us =>
    rintro k ⟨_, _, _, _, _, haddr⟩
    have hk := List.all_eq_true.mp he k (List.mem_finRange k)
    simp only [Bool.or_eq_true, decide_eq_true_eq] at hk
    exact .inl (hk.resolve_left fun hne => hne haddr)
  | _ => trivial

/-- The player in slot 0 is heard while the receive thread knows about it. -/
theorem own_frames_heard : ∃ es w, Watched Scenario.cfg.host TakesUpToDate es w ∧
    w.2.stored 0 ≠ [] ∧ ∀ src ∈ w.2.stored 0, src = Scenario.strangerAddr := by
  obtain ⟨w, hr, hw⟩ := Watched.of_test Scenario.cfg.host
    (Scenario.strangerIn ++ [.recv Scenario.strangerAddr (Scenario.audio 9 [1, 2]) 20000 20000])
    isUpToDate (fun w => ! (w.2.stored 0).isEmpty && w.2.occupant 0 = some Scenario.strangerAddr)
    upToDate_of_test (by decide +kernel)
  simp only [Bool.and_eq_true, Bool.not_eq_true', List.isEmpty_eq_false_iff, decide_eq_true_eq] at hw
  exact ⟨_, w, hr, hw.1, own_frames hr hw.2⟩

/-- The player in slot 0 leaves and another one gets the slot before the receive thread looks for
updates again: a frame of the first one that arrives now is stored for the second one. -/
theorem stranger_frame_stored : ¬ ∀ es w, Watched Scenario.cfg.host (fun _ _ => True) es w →
    ∀ k addr, w.2.occupant k = some addr → ∀ src ∈ w.2.stored k, src = addr := by
  intro hall
  obtain ⟨w, hr, hw⟩ := Watched.of_test Scenario.cfg.host
    (Scenario.strangerIn ++ Scenario.clientInstead ++
      [.recv Scenario.strangerAddr (Scenario.audio 9 [1, 2]) 40000 40000])
    (fun _ _ => true) (c := fun _ _ => True)
    (fun w => w.2.stored 0 = [Scenario.strangerAddr] &&
      w.2.occupant 0 = some Scenario.clientAddr)
    (fun _ _ _ => trivial) (by decide +kernel)
  simp only [Bool.and_eq_true, decide_eq_true_eq] at hw
  have hsrc := hall _ w hr 0 _ hw.2 Scenario.strangerAddr (by rw [hw.1]; exact List.mem_singleton_self _)
  revert hsrc
  decide

end Host

end OnlineJam
