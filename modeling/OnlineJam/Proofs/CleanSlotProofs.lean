import OnlineJam.Core.HostRun
import OnlineJam.Core.Scenario
import OnlineJam.Proofs.OccupantProofs
import Mathlib.Tactic.NormNum

/-!
# Host process: what a new player finds in its slot

`ClientJoined` and `ClientLeft` put back what belongs to the player of a slot, but for the gain that the
user gave to it and for the counters of its jitter buffer.
-/

namespace OnlineJam

open OnlineJam.Lib
open HostHandshake

namespace Host

/-- The gains and the numbers of concealed frames. -/
def SameHistory (shared shared' : HostShared) : Prop :=
  shared'.gains = shared.gains ∧
    ∀ k, (shared'.clients k).jb.stats.concealed = (shared.clients k).jb.stats.concealed

theorem sameHistory_setClient (shared : HostShared) (i : Fin maxClients) {stream : StreamShared}
    (h : stream.jb.stats.concealed = (shared.clients i).jb.stats.concealed) :
    SameHistory shared (shared.setClient i stream) := by
  refine ⟨rfl, fun k => ?_⟩
  show (Function.update shared.clients i stream k).jb.stats.concealed = _
  by_cases hk : k = i
  · rw [hk, Function.update_self, h]
  · rw [Function.update_of_ne hk]

theorem push_concealed (jb : JitterBuffer) (incoming : UInt16) (timestamp : UInt32) (payload : Bytes) :
    (jb.push incoming timestamp payload).2.stats.concealed = jb.stats.concealed := by
  have hstore : ∀ jb : JitterBuffer,
      (jb.store incoming timestamp payload).2.stats.concealed = jb.stats.concealed := by
    intro jb
    unfold JitterBuffer.store
    dsimp only
    split <;> rfl
  unfold JitterBuffer.push
  split
  · rfl
  split
  · exact hstore _
  split
  · rfl
  split <;> exact hstore _

theorem receiveAudio_concealed (cfg : RxConfig) (nowUs : Nat) (jitter : ArrivalJitter)
    (stream : StreamShared) (header : Header) (audio : AudioPacket) :
    (receiveAudio cfg nowUs jitter stream header audio).2.jb.stats.concealed =
      stream.jb.stats.concealed := by
  unfold receiveAudio
  dsimp only
  split
  · rw [push_concealed, push_concealed]
    rfl
  · rw [push_concealed]
    rfl

theorem Move.sameHistory {h h' : Host} {l : HostLabel} {out : Option Outgoing}
    (hm : Move h l h' out) : SameHistory h.shared h'.shared := by
  have calm : ∀ {h1 : Host}, Calm h1 h' → h1.shared = h.shared → SameHistory h.shared h'.shared := by
    intro h1 hc hshared
    rw [hc.shared, hshared]
    exact ⟨rfl, fun _ => rfl⟩
  cases hm with
  | sends ht hp => exact ⟨rfl, fun _ => rfl⟩
  | @executes nowUs task tasks h' ht hp hs he =>
    rw [he]
    cases task with
    | act action =>
      cases action with
      | send dst control => cases hp
      | clientJoined sender name =>
        rw [perform]
        split
        · exact sameHistory_setClient h.shared _ rfl
        · exact ⟨rfl, fun _ => rfl⟩
      | clientLeft sender reason =>
        rw [perform]
        split
        · exact sameHistory_setClient h.shared _ rfl
        · exact ⟨rfl, fun _ => rfl⟩
    | _ => cases hp
  | feeds ht hphase ht' hs hc => exact calm hc rfl
  | ticks ht hphase => exact ⟨rfl, fun _ => rfl⟩
  | takes ht hev =>
    show SameHistory h.shared (h.measure _)
    unfold measure
    split
    · exact sameHistory_setClient h.shared _ rfl
    · exact ⟨rfl, fun _ => rfl⟩
  | polls ht hc ht' => exact calm hc rfl
  | transmits hring hdst hc ht' => exact calm hc rfl
  | idles _ hc ht' => exact calm hc rfl

theorem receive_sameHistory {h h' : Host} {src : SocketAddr} {bytes : Bytes} {nowUs t3Us : Nat}
    {o : Option Outgoing} (hr : h.receive src bytes nowUs t3Us = some (h', o)) :
    SameHistory h.shared h'.shared := by
  unfold receive at hr
  split at hr
  · rw [← (Prod.mk.inj (Option.some.inj hr)).1]
    dsimp only
    unfold routeHost
    split
    · exact ⟨rfl, fun _ => rfl⟩
    · split
      · exact ⟨rfl, fun _ => rfl⟩
      split
      · exact ⟨rfl, fun _ => rfl⟩
      split
      · exact ⟨rfl, fun _ => rfl⟩
      · exact sameHistory_setClient h.shared _ (receiveAudio_concealed _ _ _ _ _ _)
    · dsimp only
      split
      · split
        · exact sameHistory_setClient h.shared _ rfl
        · exact ⟨rfl, fun _ => rfl⟩
      · exact ⟨rfl, fun _ => rfl⟩
    · exact ⟨rfl, fun _ => rfl⟩
  · cases hr

theorem take_concealed (jb : JitterBuffer) (expect : UInt16) :
    (jb.take expect).2.stats.concealed = jb.stats.concealed := by
  unfold JitterBuffer.take
  dsimp only
  split
  · rfl
  split <;> rfl

/-- A pop counts a frame as concealed if it misses. -/
theorem popNext_concealed (jb : JitterBuffer) : jb.popNext.2.stats.concealed =
    if jb.started ∧ jb.popNext.1 = .missing then jb.stats.concealed + 1 else jb.stats.concealed := by
  have htake := take_concealed jb jb.nextSeq
  rcases ht : jb.take jb.nextSeq with ⟨outcome, jb'⟩
  rw [ht] at htake
  have hcount : jb'.stats.concealed = jb.stats.concealed := htake
  by_cases hs : jb.started = true
  · cases outcome with
    | frame data timestamp => simp [JitterBuffer.popNext, hs, ht, hcount]
    | missing => simp [JitterBuffer.popNext, hs, ht, hcount]
  · simp [JitterBuffer.popNext, hs]

section Watched

variable {cfg : HostConfig} {c : Host × HostLog → HostEvent → Prop} {es : List HostEvent}
  {w : Host × HostLog}

theorem Watched.history (hr : Watched cfg c es w) : w.1.shared.gains = w.2.gain ∧
    ∀ k, (w.1.shared.clients k).jb.stats.concealed = w.2.concealed k := by
  refine hr.induction (p := fun h g => h.shared.gains = g.gain ∧
    ∀ k, (h.shared.clients k).jb.stats.concealed = g.concealed k) ⟨rfl, fun _ => rfl⟩ ?_
  intro h g e h' hcons hp _ hs
  have same : SameHistory h.shared h'.shared → (h'.shared.gains = g.gain ∧
      ∀ k, (h'.shared.clients k).jb.stats.concealed = g.concealed k) := by
    rintro ⟨hgains, hconcealed⟩
    exact ⟨hgains.trans hp.1, fun k => (hconcealed k).trans (hp.2 k)⟩
  cases e with
  | step l =>
    obtain ⟨⟨h2, out⟩, hl, rfl⟩ := Option.map_eq_some_iff.mp hs
    exact same (move_of_step hl).sameHistory
  | recv src bytes nowUs t3Us =>
    obtain ⟨⟨h2, out⟩, hrecv, rfl⟩ := Option.map_eq_some_iff.mp hs
    exact same (receive_sameHistory hrecv)
  | read slot op =>
    rw [← Option.some.inj hs] at same ⊢
    cases op with
    | pop =>
      refine ⟨hp.1, fun k => ?_⟩
      show (Function.update h.shared.clients slot _ k).jb.stats.concealed =
        if slot = k ∧ (h.shared.clients slot).jb.started ∧
          (h.shared.clients slot).jb.popNext.1 = .missing then g.concealed k + 1 else g.concealed k
      by_cases hk : k = slot
      · subst hk
        rw [Function.update_self, ← hp.2 k]
        refine (popNext_concealed _).trans ?_
        simp only [true_and]
      · rw [Function.update_of_ne hk, if_neg (fun h => hk h.1.symm)]
        exact hp.2 k
    | skip =>
      refine same (sameHistory_setClient h.shared slot ?_)
      show (h.shared.clients slot).jb.skipNext.2.stats.concealed = _
      unfold JitterBuffer.skipNext
      split <;> rfl
    | reset => exact same (sameHistory_setClient h.shared slot rfl)
  | mix player setting =>
    rw [← Option.some.inj hs] at same ⊢
    cases setting with
    | gain value =>
      refine ⟨funext fun p => ?_, hp.2⟩
      show Function.update h.shared.gains player value p = if player = p then value else g.gain p
      rw [Function.update_apply, hp.1]
      exact if_congr eq_comm rfl rfl
    | muted on => exact hp
    | soloed on => exact hp

end Watched

end Host

end OnlineJam
