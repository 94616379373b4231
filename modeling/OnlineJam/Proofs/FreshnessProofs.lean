import OnlineJam.Proofs.DenialProofs
import OnlineJam.Proofs.WatermarkProofs

/-!
# Fresh rosters

Every ROSTER that reaches a joined client in order is adopted, as long as the host stamps fewer than half
the ring of control packets from one ROSTER to the next.
-/

namespace OnlineJam

open OnlineJam.Lib

/-- The client is Joined, or a WELCOME waits in its channel or for its handshake machine. -/
def Client.Welcomed (c : Client) : Prop :=
  c.cs.isJoined = true ∨
    (∃ control, c.phase = .handshake (some control) ∧ control.packetType = .welcome) ∨
      ∃ ev ∈ c.events, ev.control.packetType = .welcome

/-- A control packet of the host goes to the control loop. -/
theorem Client.receive_control {c : Client} {src : SocketAddr} {bytes : Bytes} {nowUs t3Us : Nat}
    {r : Client × Option Outgoing} {header : Header} {control : Control}
    (hr : c.receive src bytes nowUs t3Us = some r) (hp : Parses bytes header (.control control))
    (hsrc : src = c.cfg.hostAddr) (hne : control.packetType ≠ .ping) :
    r.1.events.length = c.events.length + 1 := by
  unfold receive at hr
  split at hr
  · cases hr
  rw [← Option.some.inj hr]
  unfold routeClient
  rw [hp]
  cases control with
  | ping t1Us => exact absurd rfl hne
  | _ =>
    dsimp only
    rw [if_neg (not_not.mpr hsrc)]
    exact List.length_append

namespace Session

/-- What the host sends to a client that is Joined, or that a WELCOME has reached, arrives in order,
without loss and once. -/
def InOrder (cfg : SessionConfig) (w : Watched) : SessionLabel → Prop
  | .clientRecv i _ _ => w.1.client.Welcomed → w.2.delivered ≤ i ∧
    ∀ j e, w.2.delivered ≤ j → j < i → w.1.net[j]? = some e → e.dst ≠ cfg.clientAddr
  | _ => True

/-- From the ROSTER that the client took last since its join to the one it takes now, the host has stamped
less than half the ring of control packets. -/
def Spaced (w : Watched) : SessionLabel → Prop
  | .client (.wake _) => ∀ players ev e i,
    w.1.client.events.head? = some ev → ev.control = .roster players →
      w.2.rosters.getLast? = some e → w.2.queue.head? = some i →
        0 < ((w.2.note i).stamp - (w.2.note e.1).stamp : Int) % 65536 ∧
          ((w.2.note i).stamp - (w.2.note e.1).stamp : Int) % 65536 < 32768
  | _ => True

/-! ## The watermark -/

section Runs

variable {cfg : SessionConfig} {c : Watched → SessionLabel → Prop} {ls : List SessionLabel}
  {w : Watched} {s t : Session} {g : SessionLog} {l : SessionLabel}

/-- Half-range comparison on the ring. -/
theorem newerThan_of_mod {p q : Int} (hlo : 0 < (p - q) % 65536) (hhi : (p - q) % 65536 < 32768) :
    newerThan (lowSeq p) (lowSeq q) = true := by
  have hmod : lowSeq p = lowSeq (q + (p - q) % 65536) := by
    have h1 := lowSeq_toNat p
    have h2 := lowSeq_toNat (q + (p - q) % 65536)
    have h3 : (q + (p - q) % 65536) % 65536 = p % 65536 := by omega
    exact UInt16.toNat_inj.mp (by omega)
  rw [hmod, newerThan_lowSeq (by omega) (by omega)]
  omega

/-- The watermark is the number of the ROSTER taken last, and all have been adopted. -/
structure Marked (s : Session) (g : SessionLog) : Prop where
  last : s.client.lastRosterSeq = g.rosters.getLast?.map fun e => lowSeq (g.note e.1).stamp
  adopted : ∀ e ∈ g.rosters, e.2 = true

theorem Runs.marked (h : Runs cfg c ls w) (hc : ∀ w l, c w l → Spaced w l) : Marked w.1 w.2 := by
  refine h.induction (p := fun s g => Marked s g) ⟨rfl, fun e he => by cases he⟩ ?_
  intro ls s g l t hrun hp hcl hev
  have hnote := hrun.note_rosters (t := t) (l := l)
  -- The log stays.
  have keeps : t.client.lastRosterSeq = s.client.lastRosterSeq →
      (SessionLog.observe cfg g s l t).rosters = g.rosters →
      Marked t (SessionLog.observe cfg g s l t) := by
    intro hlast hlog
    refine ⟨?_, hlog ▸ hp.adopted⟩
    rw [hlast, hp.last, hlog]
    cases he : g.rosters.getLast? with
    | none => rfl
    | some e =>
      rw [Option.map_some, Option.map_some, hnote e (List.mem_of_getLast? he)]
  cases hrun.rosterTurn hev with
  | keeps _ hlast hlog => exact keeps hlast hlog
  | joins _ _ hlast hlog => exact keeps hlast hlog
  | updates _ _ hlast hlog => exact keeps hlast hlog
  | starts _ _ hlast hlog =>
    refine ⟨by rw [hlast, hlog]; rfl, fun e he => ?_⟩
    rw [hlog] at he
    cases he
  | @takes nowMs i ev header players hl hhead hcontrol hcar hqueue hlast hroster hlog =>
    have hseq : header.seq = lowSeq (g.note i).stamp := hrun.roster_seq hcar
    have hacc : acceptControlSeq s.client.lastRosterSeq header.seq = (true, some header.seq) := by
      rw [hp.last]
      cases he : g.rosters.getLast? with
      | none => rfl
      | some e =>
        subst hl
        obtain ⟨hlo, hhi⟩ := hc _ _ hcl players ev e i hhead hcontrol he hqueue
        have hnew : newerThan header.seq (lowSeq (g.note e.1).stamp) = true := by
          rw [hseq]
          exact newerThan_of_mod hlo hhi
        rw [Option.map_some]
        simp only [acceptControlSeq, hnew, if_true]
    rw [hacc] at hlast hroster
    have hi : (SessionLog.observe cfg g s l t).note i = g.note i := by
      obtain ⟨_, hi, _⟩ := hcar
      exact note_of_lt (lt_of_net hi)
    refine ⟨?_, fun e he => ?_⟩
    · rw [hlast, hlog, List.getLast?_concat, Option.map_some, hi, hseq]
    · rw [hlog] at he
      rcases List.mem_append.mp he with he | he
      · exact hp.adopted e he
      · rw [List.mem_singleton.mp he]
        exact decide_eq_true hroster

/-! ## The stream of datagrams -/

/-- A step, by what it does to the datagrams on their way to the control loop. -/
inductive Flow (cfg : SessionConfig) (s : Session) (g : SessionLog) (l : SessionLabel) (t : Session)
    (g' : SessionLog) : Prop
  | stays (hl : ∀ nowMs, l ≠ .client (.wake nowMs)) (hqueue : g'.queue = g.queue)
    (hdelivered : g'.delivered = g.delivered) (hhand : g'.inHand = g.inHand)
    (hphase : ∀ control, t.client.phase = .handshake (some control) →
      s.client.phase = .handshake (some control) ∧
        (s.client.tasks = [] → ∀ nowUs, l ≠ .client (.control nowUs)))
  | arrives {i nowUs t3Us : Nat} (hl : l = .clientRecv i nowUs t3Us) (hi : i < s.net.length)
    (hqueue : g'.queue = g.queue ∨ g'.queue = g.queue ++ [i])
    (hroster : ∀ header players, Carries cfg s i header (.roster players) → g'.queue = g.queue ++ [i])
    (hdelivered : g'.delivered = i + 1) (hhand : g'.inHand = g.inHand)
    (hphase : t.client.phase = s.client.phase)
  | wakes {nowMs : Nat} (hl : l = .client (.wake nowMs)) (hqueue : g'.queue = g.queue.tail)
    (hdelivered : g'.delivered = g.delivered) (hhand : g'.inHand = g.queue.head?)
    (hphase : ∀ control, t.client.phase = .handshake (some control) →
      ∃ i header, g.queue.head? = some i ∧ Carries cfg s i header control)
    (hroster : ∀ i header players, g.queue.head? = some i → Carries cfg s i header (.roster players) →
      g'.rosters ≠ g.rosters)

theorem Runs.flow (h : Runs cfg c ls (s, g)) (hev : Event cfg s l t) :
    Flow cfg s g l t (SessionLog.observe cfg g s l t) := by
  cases hev with
  | host _ => exact .stays (fun _ h => by cases h) rfl rfl rfl fun _ h => ⟨h, fun _ _ h => by cases h⟩
  | hostRecv _ _ _ =>
    exact .stays (fun _ h => by cases h) rfl rfl rfl fun _ h => ⟨h, fun _ _ h => by cases h⟩
  | strangerRecv _ _ _ =>
    exact .stays (fun _ h => by cases h) rfl rfl rfl fun _ h => ⟨h, fun _ _ h => by cases h⟩
  | @clientRecv i nowUs t3Us e r hi hd hr =>
    have hrec := Client.receive_spec (o := r.2) hr
    refine .arrives rfl (lt_of_net hi) ?_ ?_ rfl rfl hrec.phase
    · show (if r.1.events.length = s.client.events.length then g.queue else g.queue ++ [i]) = g.queue ∨
        (if r.1.events.length = s.client.events.length then g.queue else g.queue ++ [i]) = g.queue ++ [i]
      split
      · exact .inl rfl
      · exact .inr rfl
    · rintro header players ⟨e', hi', hsrc, _, hparse⟩
      obtain rfl := Option.some.inj (hi.symm.trans hi')
      have hlen := Client.receive_control (r := r) hr hparse
        (by rw [h.client_inv.2]; exact hsrc) (by simp [Control.packetType])
      refine if_neg fun hsame => ?_
      have hsame : r.1.events.length = s.client.events.length := hsame
      omega
  | @client cl r hs =>
    rcases Client.step_cases (o := r.2) hs with ⟨nowUs, task, tasks, rfl, htasks, hp⟩ |
      ⟨nowUs, rfl, htasks, ha⟩ | ⟨nowMs, rfl, htasks, he, _⟩ | ⟨hl1, hl2, _, _, hphase, _⟩
    · refine .stays (fun _ h => by cases h) rfl rfl rfl fun control hc => ?_
      have hphase := (Client.perform_keeps { s.client with tasks := tasks } nowUs task).1
      rw [hp] at hphase
      exact ⟨hphase ▸ hc, fun hnil => by rw [htasks] at hnil; cases hnil⟩
    · refine .stays (fun _ h => by cases h) rfl rfl rfl fun control hc => ?_
      have hc : r.1.phase = .handshake (some control) := hc
      rcases Client.advance_cases htasks ha with ⟨_, _, he, _⟩ | ⟨_, _, he, _⟩ | ⟨_, _, hne⟩
      · rw [he] at hc
        cases hc
      · rw [he] at hc
        cases hc
      · exact absurd hc (hne _)
    · have hqueue := h.queue
      refine .wakes rfl rfl rfl rfl ?_ ?_
      · intro control hc
        have hc : (s.client.wake nowMs).phase = .handshake (some control) := he ▸ hc
        rcases Client.wake_cases nowMs htasks with ⟨_, _, _, hne⟩ | ⟨ev, events, hcons, hd⟩
        · exact absurd hc (hne _)
        obtain ⟨rfl, _⟩ := hd.phase control hc
        rw [hcons] at hqueue
        obtain ⟨i, queue, hcar, _, hq⟩ := List.forall₂_cons_left_iff.mp hqueue
        exact ⟨i, ev.header, by rw [show g.queue = i :: queue from hq]; rfl, hcar⟩
      · intro i header players hhead hcar
        cases hcons : s.client.events with
        | nil =>
          rw [hcons] at hqueue
          rw [show g.queue = [] from List.forall₂_nil_left_iff.mp hqueue] at hhead
          cases hhead
        | cons ev events =>
          rw [hcons] at hqueue
          obtain ⟨i', queue, hcar', _, hq⟩ := List.forall₂_cons_left_iff.mp hqueue
          rw [show g.queue = i' :: queue from hq] at hhead
          obtain rfl := Option.some.inj hhead
          rw [rosters_of_take hcons (hcar'.unique hcar).2 (by rw [show g.queue = i' :: queue from hq]; rfl)]
          exact fun hsame => absurd (congrArg List.length hsame) (by simp)
    · cases cl with
      | control nowUs => exact absurd rfl (hl1 nowUs)
      | wake nowMs => exact absurd rfl (hl2 nowMs)
      | _ =>
        exact .stays (fun _ h => by cases h) rfl rfl rfl fun control hc =>
          ⟨hphase ▸ hc, fun _ _ h => by cases h⟩

end Runs

/-- The `k`-th datagram is a WELCOME for the client. -/
def IsWelcome (cfg : SessionConfig) (s : Session) (k : Nat) : Prop :=
  ∃ header control, Carries cfg s k header control ∧ control.packetType = .welcome

/-- The datagrams `q` have arrived in order after the `k`-th one, and every ROSTER that has is among
them or was taken before. -/
structure Follows (cfg : SessionConfig) (s : Session) (g : SessionLog) (k : Nat) (q : List Nat)
    (logged : Nat → Prop) : Prop where
  lt : k < g.delivered
  sorted : q.Pairwise (· < ·)
  between : ∀ i ∈ q, k < i ∧ i < g.delivered
  complete : ∀ j header players, Carries cfg s j header (.roster players) → k < j → j < g.delivered →
    j ∈ q ∨ logged j

/-- The ROSTER is in the log, and the log belongs to the join. -/
def Logged (s : Session) (g : SessionLog) (j : Nat) : Prop :=
  (∀ id sessionId params, .act (.startAudio id sessionId params) ∉ s.client.tasks) ∧
    ∃ b, (j, b) ∈ g.rosters

/-- How far the client is in the stream after a WELCOME. -/
structure Progress (cfg : SessionConfig) (s : Session) (g : SessionLog) : Prop where
  known : g.delivered ≤ s.net.length
  waiting : ∀ pre k post, g.queue = pre ++ k :: post → IsWelcome cfg s k →
    Follows cfg s g k post fun _ => False
  inHand : ∀ control, s.client.phase = .handshake (some control) → control.packetType = .welcome →
    ∃ k, g.inHand = some k ∧ Follows cfg s g k g.queue fun _ => False
  joined : s.client.cs.isJoined = true → ∃ a, g.accepted = some a ∧
    Follows cfg s g a g.queue (Logged s g)

section Runs

variable {cfg : SessionConfig} {c : Watched → SessionLabel → Prop} {ls : List SessionLabel}
  {w : Watched} {s t : Session} {g g' : SessionLog} {l : SessionLabel} {k : Nat} {q : List Nat}
  {logged logged' : Nat → Prop}

theorem Event.net_length_le (h : Event cfg s l t) : s.net.length ≤ t.net.length := by
  rcases h.net with hn | ⟨e, hn⟩ <;> rw [hn]
  exact List.length_append ▸ Nat.le_add_right _ _

/-- A datagram that is not the one just sent. -/
theorem Carries.old (hev : Event cfg s l t) {i : Nat} {header : Header} {control : Control}
    (h : Carries cfg t i header control) (hlt : i < s.net.length) : Carries cfg s i header control := by
  obtain ⟨e, hi, hcar⟩ := h
  rcases hev.net_cases (g := SessionLog.new) hi with ⟨hi, _⟩ | ⟨_, rfl, _⟩
  · exact ⟨e, hi, hcar⟩
  · exact absurd hlt (Nat.lt_irrefl _)

/-- What waits in the channel was sent to the client. -/
theorem Runs.queue_mem (h : Runs cfg c ls w) {i : Nat} (hi : i ∈ w.2.queue) :
    ∃ ev ∈ w.1.client.events, Carries cfg w.1 i ev.header ev.control := by
  have hqueue := h.queue
  revert hi
  generalize w.2.queue = queue at hqueue ⊢
  generalize w.1.client.events = events at hqueue ⊢
  induction hqueue with
  | nil => exact fun hi => by cases hi
  | cons hcar _ ih =>
    intro hi
    rcases List.mem_cons.mp hi with rfl | hi
    · exact ⟨_, List.mem_cons_self, hcar⟩
    · obtain ⟨ev, hev, hcar⟩ := ih hi
      exact ⟨ev, List.mem_cons_of_mem _ hev, hcar⟩

theorem Runs.queue_isWelcome (h : Runs cfg c ls (s, g)) (hev : Event cfg s l t) {i : Nat}
    (hi : i ∈ g.queue) (hw : IsWelcome cfg t i) :
    IsWelcome cfg s i ∧ ∃ ev ∈ s.client.events, ev.control.packetType = .welcome := by
  obtain ⟨ev, hmem, hcar⟩ := h.queue_mem hi
  obtain ⟨header, control, hcar', htype⟩ := hw
  have hlt : i < s.net.length := by
    obtain ⟨_, hi, _⟩ := hcar
    exact lt_of_net hi
  have hcar' := hcar'.old hev hlt
  exact ⟨⟨header, control, hcar', htype⟩, ev, hmem, (hcar.unique hcar').2 ▸ htype⟩

/-- Nothing has arrived. -/
theorem Follows.same (h : Follows cfg s g k q logged) (hev : Event cfg s l t)
    (hknown : g.delivered ≤ s.net.length) (hdelivered : g'.delivered = g.delivered)
    (hlogged : ∀ j, logged j → logged' j) : Follows cfg t g' k q logged' := by
  refine ⟨hdelivered ▸ h.lt, h.sorted, hdelivered ▸ h.between, fun j header players hcar hk hj => ?_⟩
  rw [hdelivered] at hj
  exact (h.complete j header players (hcar.old hev (hj.trans_le hknown)) hk hj).imp_right (hlogged j)

/-- The next datagram has arrived. -/
theorem Follows.arrives (h : Follows cfg s g k q logged) (hev : Event cfg s l t) {i : Nat}
    {q' : List Nat} (hi : i < s.net.length) (hq : q' = q ∨ q' = q ++ [i])
    (hroster : ∀ header players, Carries cfg s i header (.roster players) → q' = q ++ [i])
    (hdelivered : g'.delivered = i + 1) (hle : g.delivered ≤ i)
    (hloss : ∀ j e, g.delivered ≤ j → j < i → s.net[j]? = some e → e.dst ≠ cfg.clientAddr)
    (hlogged : ∀ j, logged j → logged' j) : Follows cfg t g' k q' logged' := by
  have hlt := h.lt
  refine ⟨by omega, ?_, fun x hx => ?_, fun j header players hcar hk hj => ?_⟩
  · rcases hq with rfl | rfl
    · exact h.sorted
    · refine List.pairwise_append.mpr ⟨h.sorted, List.pairwise_singleton _ _, fun x hx y hy => ?_⟩
      rw [List.mem_singleton.mp hy]
      exact (h.between x hx).2.trans_le hle
  · have hx : x ∈ q ∨ x = i := by
      rcases hq with rfl | rfl
      · exact .inl hx
      · exact (List.mem_append.mp hx).imp_right List.mem_singleton.mp
    rcases hx with hx | rfl
    · have := h.between x hx
      omega
    · omega
  · rw [hdelivered] at hj
    have hcar := hcar.old hev (by omega)
    by_cases hold : j < g.delivered
    · refine (h.complete j header players hcar hk hold).imp (fun hj => ?_) (hlogged j)
      rcases hq with rfl | rfl
      · exact hj
      · exact List.mem_append_left _ hj
    left
    by_cases hji : j = i
    · subst hji
      rw [hroster header players hcar]
      exact List.mem_append_right _ (List.mem_singleton.mpr rfl)
    · obtain ⟨e, he, _, hdst, _⟩ := hcar
      exact absurd hdst (hloss j e (Nat.le_of_not_lt hold) (by omega) he)

theorem Follows.weaken (h : Follows cfg s g k q fun _ => False) : Follows cfg s g k q logged :=
  ⟨h.lt, h.sorted, h.between, fun j header players hcar hk hj =>
    (h.complete j header players hcar hk hj).imp_right False.elim⟩

/-- The log is that of the same join. -/
theorem Logged.mono {j : Nat} (h : Logged s g j)
    (htasks : ∀ task ∈ t.client.tasks, task.IsJoin → task ∈ s.client.tasks)
    (hlog : ∀ b, (j, b) ∈ g.rosters → (j, b) ∈ g'.rosters) : Logged t g' j := by
  obtain ⟨hno, b, hb⟩ := h
  exact ⟨fun id sid params hmem => hno id sid params (htasks _ hmem (.inl ⟨_, _, _, rfl⟩)), b, hlog b hb⟩

theorem Progress.stays (hp : Progress cfg s g) (hrun : Runs cfg c ls (s, g)) (hev : Event cfg s l t)
    (hturn : RosterTurn cfg s g l t g') (hl : ∀ nowMs, l ≠ .client (.wake nowMs))
    (hqueue : g'.queue = g.queue) (hdelivered : g'.delivered = g.delivered)
    (hhand : g'.inHand = g.inHand)
    (hphase : ∀ control, t.client.phase = .handshake (some control) →
      s.client.phase = .handshake (some control) ∧
        (s.client.tasks = [] → ∀ nowUs, l ≠ .client (.control nowUs))) : Progress cfg t g' := by
  refine ⟨?_, fun pre k post hsplit hw => ?_, fun control hc htype => ?_, fun hj => ?_⟩
  · rw [hdelivered]
    exact hp.known.trans hev.net_length_le
  · rw [hqueue] at hsplit
    have hmem : k ∈ g.queue := by
      rw [hsplit]
      exact List.mem_append_right _ List.mem_cons_self
    exact (hp.waiting pre k post hsplit (hrun.queue_isWelcome hev hmem hw).1).same hev hp.known hdelivered
      fun _ h => h
  · obtain ⟨k, hk, hf⟩ := hp.inHand control (hphase control hc).1 htype
    rw [hqueue]
    exact ⟨k, hhand.trans hk, hf.same hev hp.known hdelivered fun _ h => h⟩
  · rw [hqueue]
    have keeps : g'.accepted = g.accepted → s.client.cs.isJoined = true →
        (∀ j, Logged s g j → Logged t g' j) → ∃ a, g'.accepted = some a ∧
          Follows cfg t g' a g.queue (Logged t g') := by
      intro hacc hj hlogged
      obtain ⟨a, ha, hf⟩ := hp.joined hj
      exact ⟨a, hacc.trans ha, hf.same hev hp.known hdelivered hlogged⟩
    cases hturn with
    | keeps _ _ hlog hacc hcs _ ht =>
      refine keeps hacc (hcs hj) fun j hj => hj.mono ?_ fun b hb => hlog ▸ hb
      rcases ht with ht | ⟨hback, _⟩
      · exact fun task hmem _ => ht ▸ hmem
      · exact hback
    | updates _ ht _ hlog hacc hcs =>
      refine keeps hacc (hcs hj) fun j hj => hj.mono (fun task hmem _ => ?_) fun b hb => hlog ▸ hb
      rw [ht]
      exact List.mem_cons_of_mem _ hmem
    | @starts _ id sid params _ ht _ _ hacc hcs =>
      refine keeps hacc (hcs hj) fun j ⟨hno, _⟩ => absurd ?_ (hno id sid params)
      rw [ht]
      exact List.mem_cons_self
    | joins _ hhs _ _ _ _ _ hacc =>
      obtain ⟨control, hhs, htype⟩ := hhs
      obtain ⟨k, hk, hf⟩ := hp.inHand control hhs htype
      exact ⟨k, hacc.trans hk, (hf.same hev hp.known hdelivered fun _ h => h).weaken⟩
    | takes hl' => exact absurd hl' (hl _)

/-- A datagram has arrived. -/
theorem Progress.arrives (hp : Progress cfg s g) (hrun : Runs cfg c ls (s, g)) (hev : Event cfg s l t)
    (hturn : RosterTurn cfg s g l t g') {i nowUs t3Us : Nat} (hl : l = .clientRecv i nowUs t3Us)
    (hi : i < s.net.length) (hqueue : g'.queue = g.queue ∨ g'.queue = g.queue ++ [i])
    (hroster : ∀ header players, Carries cfg s i header (.roster players) → g'.queue = g.queue ++ [i])
    (hdelivered : g'.delivered = i + 1) (hhand : g'.inHand = g.inHand)
    (hphase : t.client.phase = s.client.phase) (hc : InOrder cfg (s, g) l) : Progress cfg t g' := by
  subst hl
  -- What follows a WELCOME that is there already.
  have next : ∀ {k logged logged'}, s.client.Welcomed → Follows cfg s g k g.queue logged →
      (∀ j, logged j → logged' j) → Follows cfg t g' k g'.queue logged' := by
    intro k logged logged' hw hf hlogged
    obtain ⟨hle, hloss⟩ := hc hw
    exact hf.arrives hev hi hqueue hroster hdelivered hle hloss hlogged
  refine ⟨?_, fun pre k post hsplit hw => ?_, fun control hc' htype => ?_, fun hj => ?_⟩
  · rw [hdelivered]
    exact Nat.le_trans hi hev.net_length_le
  · -- One of those that waited.
    have old : ∀ post', g.queue = pre ++ k :: post' → post = post' ∨ post = post' ++ [i] →
        (∀ header players, Carries cfg s i header (.roster players) → post = post' ++ [i]) →
        Follows cfg t g' k post fun _ => False := by
      intro post' hsplit' hpost hroster'
      have hmem : k ∈ g.queue := by
        rw [hsplit']
        exact List.mem_append_right _ List.mem_cons_self
      obtain ⟨hw, ev, hmem, htype⟩ := hrun.queue_isWelcome hev hmem hw
      obtain ⟨hle, hloss⟩ := hc (.inr (.inr ⟨ev, hmem, htype⟩))
      exact (hp.waiting pre k post' hsplit' hw).arrives hev hi hpost hroster' hdelivered hle hloss
        fun _ h => h
    rcases hqueue with hqueue | hqueue
    · refine old post (hqueue.symm.trans hsplit) (.inl rfl) fun header players hcar => ?_
      have hlen := congrArg List.length (hqueue.symm.trans (hroster header players hcar))
      rw [List.length_append, List.length_singleton] at hlen
      omega
    · rw [hqueue] at hsplit
      rcases split_append_singleton hsplit with ⟨rfl, -, rfl⟩ | ⟨post', rfl, hsplit'⟩
      · refine ⟨by omega, .nil, fun x hx => (by cases hx), fun j _ _ _ hk hj => ?_⟩
        omega
      · exact old post' hsplit' (.inr rfl) fun _ _ _ => rfl
  · rw [hphase] at hc'
    obtain ⟨k, hk, hf⟩ := hp.inHand control hc' htype
    exact ⟨k, hhand.trans hk, next (.inr (.inl ⟨control, hc', htype⟩)) hf fun _ h => h⟩
  · cases hturn with
    | keeps _ _ hlog hacc hcs _ ht =>
      obtain ⟨a, ha, hf⟩ := hp.joined (hcs hj)
      refine ⟨a, hacc.trans ha, next (.inl (hcs hj)) hf fun j hj => hj.mono ?_ fun b hb => hlog ▸ hb⟩
      rcases ht with ht | ⟨hback, _⟩
      · exact fun task hmem _ => ht ▸ hmem
      · exact hback
    | joins h => cases h
    | starts h => cases h
    | updates h => cases h
    | takes h => cases h

/-- The control loop has taken the first datagram that waited. -/
theorem Progress.wakes (hp : Progress cfg s g) (hrun : Runs cfg c ls (s, g)) (hev : Event cfg s l t)
    (hturn : RosterTurn cfg s g l t g') {nowMs : Nat} (hl : l = .client (.wake nowMs))
    (hqueue : g'.queue = g.queue.tail) (hdelivered : g'.delivered = g.delivered)
    (hhand : g'.inHand = g.queue.head?)
    (hphase : ∀ control, t.client.phase = .handshake (some control) →
      ∃ i header, g.queue.head? = some i ∧ Carries cfg s i header control)
    (hroster : ∀ i header players, g.queue.head? = some i → Carries cfg s i header (.roster players) →
      g'.rosters ≠ g.rosters) : Progress cfg t g' := by
  subst hl
  refine ⟨?_, fun pre k post hsplit hw => ?_, fun control hc htype => ?_, fun hj => ?_⟩
  · rw [hdelivered]
    exact hp.known.trans hev.net_length_le
  · cases hlist : g.queue with
    | nil =>
      rw [hqueue, hlist] at hsplit
      cases pre <;> cases hsplit
    | cons h queue =>
      rw [hqueue, hlist, List.tail_cons] at hsplit
      have hmem : k ∈ g.queue := by
        rw [hlist, hsplit]
        exact List.mem_cons_of_mem _ (List.mem_append_right _ List.mem_cons_self)
      have hf := hp.waiting (h :: pre) k post (by rw [hlist, hsplit]; rfl)
        (hrun.queue_isWelcome hev hmem hw).1
      exact hf.same hev hp.known hdelivered fun _ h => h
  · obtain ⟨i, header, hhead, hcar⟩ := hphase control hc
    obtain ⟨queue, hlist⟩ := List.head?_eq_some_iff.mp hhead
    have hf := hp.waiting [] i queue hlist ⟨header, control, hcar, htype⟩
    refine ⟨i, hhand.trans hhead, ?_⟩
    rw [hqueue, hlist, List.tail_cons]
    exact hf.same hev hp.known hdelivered fun _ h => h
  · -- What a ROSTER at the head of the channel comes to.
    have taken : ∀ {a : Nat}, Follows cfg s g a g.queue (Logged s g) →
        (∀ j, Logged s g j → Logged t g' j) →
        (∀ j header players, g.queue.head? = some j → Carries cfg s j header (.roster players) →
          Logged t g' j) → Follows cfg t g' a g'.queue (Logged t g') := by
      intro a hf hlogged hhead
      have hf' := hf.same hev hp.known hdelivered hlogged
      refine ⟨hf'.lt, ?_, fun i hi => hf'.between i ?_, fun j header players hcar hk hj => ?_⟩
      · rw [hqueue]
        exact hf.sorted.tail
      · rw [hqueue] at hi
        exact List.mem_of_mem_tail hi
      · refine (hf'.complete j header players hcar hk hj).elim (fun hj' => ?_) .inr
        rw [hqueue]
        cases hlist : g.queue with
        | nil =>
          rw [hlist] at hj'
          cases hj'
        | cons h queue =>
          rw [hlist] at hj'
          refine (List.mem_cons.mp hj').elim (fun hjh => .inr ?_) .inl
          refine hhead j header players (by rw [hlist, hjh]; rfl) (hcar.old hev ?_)
          exact (hdelivered ▸ hj).trans_le hp.known
    cases hturn with
    | keeps _ _ hlog hacc hcs _ ht =>
      obtain ⟨a, ha, hf⟩ := hp.joined (hcs hj)
      refine ⟨a, hacc.trans ha, taken hf (fun j hj => hj.mono ?_ fun b hb => hlog ▸ hb)
        fun j header players hhead hcar => absurd hlog (hroster j header players hhead hcar)⟩
      rcases ht with ht | ⟨hback, _⟩
      · exact fun task hmem _ => ht ▸ hmem
      · exact hback
    | takes _ _ _ _ hq _ _ hlog hacc hcs _ hn =>
      obtain ⟨a, ha, hf⟩ := hp.joined (hcs hj)
      refine ⟨a, hacc.trans ha, taken hf (fun j hj => hj.mono ?_ fun b hb => ?_)
        fun j header players hhead hcar => ⟨?_, ?_⟩⟩
      · exact fun task hmem hjoin => absurd (joining_of_isJoin hmem hjoin) hn
      · rw [hlog]
        exact List.mem_append_left _ hb
      · exact fun _ _ _ hmem => hn (joining_of_isJoin hmem (.inl ⟨_, _, _, rfl⟩))
      · obtain rfl := Option.some.inj (hhead.symm.trans hq)
        rw [hlog]
        exact ⟨_, List.mem_append_right _ (List.mem_singleton.mpr rfl)⟩
    | joins h => cases h
    | starts h => cases h
    | updates h => cases h

theorem Runs.progress (h : Runs cfg c ls w) (hc : ∀ w l, c w l → InOrder cfg w l) :
    Progress cfg w.1 w.2 := by
  refine h.induction (p := fun s g => Progress cfg s g) ?_ ?_
  · refine ⟨le_rfl, fun pre k post hsplit => ?_, fun control h => (by cases h), fun h => by cases h⟩
    cases pre <;> cases hsplit
  intro ls s g l t hrun hp hcl hev
  have hturn := hrun.rosterTurn hev
  cases hrun.flow hev with
  | stays hl hqueue hdelivered hhand hphase =>
    exact hp.stays hrun hev hturn hl hqueue hdelivered hhand hphase
  | arrives hl hi hqueue hroster hdelivered hhand hphase =>
    exact hp.arrives hrun hev hturn hl hi hqueue hroster hdelivered hhand hphase (hc _ _ hcl)
  | wakes hl hqueue hdelivered hhand hphase hroster =>
    exact hp.wakes hrun hev hturn hl hqueue hdelivered hhand hphase hroster

end Runs

/-- A ROSTER that was sent to the client after the WELCOME it is Joined by is adopted when its turn
comes. -/
theorem fresh_roster_adopted (cfg : SessionConfig) (ls : List SessionLabel) (w : Watched)
    (h : Runs cfg (fun w l => InOrder cfg w l ∧ Spaced w l) ls w)
    (hjoined : w.1.client.cs.isJoined = true) (a j : Nat) (ha : w.2.accepted = some a) (haj : a < j)
    (header : Header) (players : List PlayerInfo)
    (hcar : Carries cfg w.1 j header (.roster players)) (hj : j < w.2.delivered)
    (hq : j ∉ w.2.queue) : (j, true) ∈ w.2.rosters := by
  obtain ⟨a', ha', hf⟩ := (h.progress fun _ _ hc => hc.1).joined hjoined
  obtain rfl := Option.some.inj (ha.symm.trans ha')
  rcases hf.complete j header players hcar haj hj with h | ⟨_, b, hb⟩
  · exact absurd h hq
  · have hadopted : b = true := (h.marked fun _ _ hc => hc.2).adopted _ hb
    rwa [hadopted] at hb

/-- A test for arrival in order. -/
def arrivesInOrder (cfg : SessionConfig) (w : Watched) : SessionLabel → Bool
  | .clientRecv i _ _ => w.2.delivered ≤ i &&
    ((w.1.net.take i).drop w.2.delivered).all fun e => e.dst ≠ cfg.clientAddr
  | _ => true

theorem inOrder_of_test (cfg : SessionConfig) (w : Watched) (l : SessionLabel)
    (h : arrivesInOrder cfg w l = true) : InOrder cfg w l := by
  cases l with
  | clientRecv i nowUs t3Us =>
    obtain ⟨hle, hall⟩ := (Bool.and_eq_true _ _).mp h
    refine fun _ => ⟨of_decide_eq_true hle, fun j e hlo hhi he => ?_⟩
    refine of_decide_eq_true (List.all_eq_true.mp hall e ?_)
    refine List.mem_iff_getElem?.mpr ⟨j - w.2.delivered, ?_⟩
    rw [List.getElem?_drop, Nat.add_sub_cancel' hlo, List.getElem?_take_of_lt hhi, he]
  | _ => trivial

/-- A test for the distance of two ROSTERs. -/
def takesSpaced (w : Watched) : SessionLabel → Bool
  | .client (.wake _) =>
    match w.1.client.events.map CtrlEvent.control, w.2.rosters.getLast?, w.2.queue with
    | .roster _ :: _, some e, i :: _ =>
      let distance := ((w.2.note i).stamp - (w.2.note e.1).stamp : Int) % 65536
      0 < distance && distance < 32768
    | _, _, _ => true
  | _ => true

theorem spaced_of_test (w : Watched) (l : SessionLabel) (h : takesSpaced w l = true) : Spaced w l := by
  unfold Spaced
  split
  · intro players ev e i hev hcontrol he hi
    obtain ⟨events, hevents⟩ := List.head?_eq_some_iff.mp hev
    obtain ⟨queue, hqueue⟩ := List.head?_eq_some_iff.mp hi
    unfold takesSpaced at h
    simp only [hevents, List.map_cons, hcontrol, he, hqueue, Bool.and_eq_true, decide_eq_true_eq] at h
    exact h
  · trivial

/-- The client has joined and has the ROSTER of a stranger's join. Everybody waits. -/
def settled : List SessionLabel :=
  joinThenRoster ++ Scenario.client 5 31000 ++ Scenario.host 8 30000 ++ Scenario.rx 3

/-- The ROSTER of the farewell is the second one that the client takes. -/
theorem fresh_roster_adopted_next : ∃ ls w,
    Runs Scenario.cfg (fun w l => InOrder Scenario.cfg w l ∧ Spaced w l) ls w ∧
    w.2.rosters.length = 2 ∧ (5, true) ∈ w.2.rosters := by
  obtain ⟨w, hr, hp⟩ := Runs.of_test Scenario.cfg
    (settled ++ farewell ++ [.clientRecv 5 41000 41000, .client (.wake 41)])
    (fun w l => arrivesInOrder Scenario.cfg w l && takesSpaced w l)
    (fun w => w.1.client.cs.isJoined && decide (w.2.accepted = some 1) && decide (w.2.delivered = 6) &&
      decide (w.2.queue = []) && decide (w.2.rosters.length = 2) &&
      w.1.net[5]?.any (bringsRoster [⟨0, "host"⟩, ⟨1, "ann"⟩]))
    (fun w l h => (Bool.and_eq_true _ _).mp h |>.imp (inOrder_of_test _ w l) (spaced_of_test w l))
    (by decide +kernel)
  simp only [Bool.and_eq_true, decide_eq_true_eq] at hp
  obtain ⟨⟨⟨⟨⟨hj, ha⟩, hd⟩, hq⟩, htwo⟩, hnet⟩ := hp
  obtain ⟨header, hcarries⟩ := carries_of_test hnet
  exact ⟨_, w, hr, htwo, fresh_roster_adopted Scenario.cfg _ w hr hj 1 5 ha (by decide) header _ hcarries
    (by rw [hd]; decide) (by rw [hq]; exact List.not_mem_nil)⟩

/-! ### The watermark goes round -/

/-- Somebody who does not know the room code. -/
def pesterer : SocketAddr := .v4 0x0A000004 40000

def wrongCode : Vector UInt8 roomCodeLen := #v[0, 0, 0, 0, 0, 0]

/-- Before the denials: the host is quiet, and the client is Joined and up to date. -/
def isSettled (w : Watched) : Bool :=
  let h := w.1.host
  decide (h.phase = .wait) && decide (h.tasks = []) && decide (h.events = []) &&
    decide (h.rxPhase = .recv) && decide (h.updates = []) && !h.shutdown && !h.shared.shutdown &&
    decide (∀ k, (h.shared.clients k).lastRxUs = 0) &&
    decide (∀ k, (h.hs.slots k).all fun s => HostHandshake.tickSlot h.nowMs s = .kept) &&
    decide (¬ h.nowMs - h.lastPing ≥ pingIntervalMs) &&
    decide (¬ h.nowMs - h.lastKeepalive ≥ keepaliveMs) &&
    decide (h.hs.senderForAddr pesterer = none) && decide (wrongCode ≠ h.hs.roomCode) &&
    decide (w.2.rosters = [(4, true)]) && decide (w.2.queue = []) && decide (w.2.accepted = some 1) &&
    decide (w.2.delivered = 5) && w.1.client.cs.isJoined && decide (w.1.client.tasks = []) &&
    decide (w.1.client.phase = .wait) && decide (w.1.client.events = []) &&
    (w.1.net.drop 5).all fun e => e.dst ≠ Scenario.clientAddr

/-- After `n` denials: the ROSTER of the farewell is the next datagram for the client, which does not
take its players. -/
def refuses (n : Nat) (w : Watched) : Bool :=
  match exec (talk Scenario.cfg) ({ w.1.host with seq := ⟨w.1.host.seq.val + UInt16.ofNat n⟩ }, [])
      farewell with
  | some (_, [o]) => o.dst = Scenario.clientAddr &&
    match w.1.client.receive Scenario.hostAddr o.bytes 41000 41000 with
    | some (c, _) => c.tasks = [] && c.phase = .wait &&
      match c.events with
      | [ev] =>
        match ev.control with
        | .roster players => (c.wake 41).roster ≠ players
        | _ => false
      | _ => false
    | none => false
  | _ => false

theorem settled_refuses : ∃ w, Runs Scenario.cfg (InOrder Scenario.cfg) settled w ∧
    (isSettled w && refuses 32767 w) = true :=
  Runs.of_test Scenario.cfg settled (arrivesInOrder Scenario.cfg) _ (inOrder_of_test Scenario.cfg)
    (by decide +kernel)

theorem quiet_of_isSettled {w : Watched} (h : isSettled w = true) :
    w.1.host.Quiet pesterer wrongCode := by
  simp only [isSettled, Bool.and_eq_true, decide_eq_true_eq, Bool.not_eq_true', and_assoc] at h
  obtain ⟨hphase, htasks, hevents, hrx, hupdates, hshut, hshared, hheard, hkept, hpings, hkeep, hsender,
    hcode, -⟩ := h
  refine ⟨hphase, htasks, hevents, hrx, hupdates, hshut, hshared, fun k => ?_, tick_of_kept fun k s hs => ?_,
    hpings, hkeep, hsender, hcode⟩
  · rw [if_neg]
    rw [hheard k]
    exact Nat.lt_irrefl 0
  · have hk := hkept k
    rw [hs] at hk
    exact of_decide_eq_true hk

/-- The client takes a ROSTER as soon as it arrives, and does not get its players. -/
theorem Runs.takes_refused {cfg : SessionConfig} {ls : List SessionLabel} {w : Watched}
    (h : Runs cfg (InOrder cfg) ls w) {i nowUs nowMs : Nat} {e : Envelope} {c' : Client}
    {out : Option Outgoing} {ev : CtrlEvent} {players : List PlayerInfo} (he : w.1.net[i]? = some e)
    (hdst : e.dst = cfg.clientAddr) (horder : InOrder cfg w (.clientRecv i nowUs nowUs))
    (hq : w.2.queue = []) (hnil : w.1.client.events = [])
    (hr : w.1.client.receive e.src e.bytes nowUs nowUs = some (c', out)) (hev : c'.events = [ev])
    (hcontrol : ev.control = .roster players) (htasks : c'.tasks = []) (hphase : c'.phase = .wait)
    (hne : (c'.wake nowMs).roster ≠ players) :
    ∃ ls' w', Runs cfg (InOrder cfg) ls' w' ∧ w'.1.client.cs = w.1.client.cs ∧
      w'.2.accepted = w.2.accepted ∧ w'.2.rosters = w.2.rosters ++ [(i, false)] ∧ w'.2.queue = [] ∧
      w'.2.delivered = i + 1 ∧ Carries cfg w'.1 i ev.header (.roster players) := by
  have hrec := Client.receive_spec hr
  -- It arrives.
  have hs₁ : step cfg w.1 (.clientRecv i nowUs nowUs) = some (w.1.clientMoved cfg (c', out)) := by
    have harrives : w.1.arriving cfg.clientAddr i = some e := by
      rw [arriving, he, Option.filter_some, if_pos (decide_eq_true hdst)]
    simp only [step, harrives, hr, Option.bind_eq_bind, Option.bind_some, Option.map_some]
  let w₁ : Watched := (w.1.clientMoved cfg (c', out),
    SessionLog.observe cfg w.2 w.1 (.clientRecv i nowUs nowUs) (w.1.clientMoved cfg (c', out)))
  have hrun₁ : Runs cfg (InOrder cfg) (ls ++ [.clientRecv i nowUs nowUs]) w₁ :=
    .snoc h horder (watch_eq_some.mpr ⟨hs₁, rfl⟩)
  have hq₁ : w₁.2.queue = [i] := by
    show (if c'.events.length = w.1.client.events.length then w.2.queue else w.2.queue ++ [i]) = [i]
    rw [hev, hnil, hq]
    rfl
  -- The control loop takes it.
  have hs₂ : step cfg w₁.1 (.client (.wake nowMs)) = some (w₁.1.clientMoved cfg (c'.wake nowMs, none)) := by
    show (c'.step (.wake nowMs)).map _ = _
    rw [Client.step, if_pos ⟨htasks, hphase⟩]
    rfl
  let w₂ : Watched := (w₁.1.clientMoved cfg (c'.wake nowMs, none), SessionLog.observe cfg w₁.2 w₁.1
    (.client (.wake nowMs)) (w₁.1.clientMoved cfg (c'.wake nowMs, none)))
  have hrun₂ : Runs cfg (InOrder cfg) (ls ++ [.clientRecv i nowUs nowUs] ++ [.client (.wake nowMs)]) w₂ :=
    .snoc hrun₁ trivial (watch_eq_some.mpr ⟨hs₂, rfl⟩)
  have hcs : (c'.wake nowMs).cs = c'.cs := by
    rcases Client.wake_cases nowMs htasks with ⟨hnil', _⟩ | ⟨_, _, _, hd⟩
    · rw [hev] at hnil'
      cases hnil'
    · exact hd.cs
  have hqueue : i ∈ w₁.2.queue := hq₁ ▸ List.mem_singleton.mpr rfl
  obtain ⟨ev', hmem, hcar⟩ := hrun₁.queue_mem hqueue
  obtain rfl : ev' = ev := List.mem_singleton.mp (hev ▸ hmem)
  refine ⟨_, w₂, hrun₂, hcs.trans hrec.cs, ?_, ?_, ?_, rfl, ?_⟩
  · have h₂ : w₂.2.accepted = w₁.2.accepted := accepted_same fun hj => hcs ▸ hj
    exact h₂.trans (accepted_same fun hj => hrec.cs ▸ hj)
  · have hlog : (SessionLog.observe cfg w₁.2 w₁.1 (.client (.wake nowMs)) w₂.1).rosters =
        w₁.2.rosters ++ [(i, decide ((c'.wake nowMs).roster = players))] :=
      rosters_of_take hev hcontrol (by rw [hq₁]; rfl)
    rw [decide_eq_false hne] at hlog
    exact hlog
  · show w₁.2.queue.tail = []
    rw [hq₁]
    rfl
  · rw [← hcontrol]
    exact hcar.mono (event_of_step hs₂)

theorem refuses_spec {n : Nat} {w : Watched} (h : refuses n w = true) :
    ∃ host o c' out ev players, exec (talk Scenario.cfg)
        ({ w.1.host with seq := ⟨w.1.host.seq.val + UInt16.ofNat n⟩ }, []) farewell = some (host, [o]) ∧
      o.dst = Scenario.clientAddr ∧
      w.1.client.receive Scenario.hostAddr o.bytes 41000 41000 = some (c', out) ∧ c'.tasks = [] ∧
      c'.phase = .wait ∧ c'.events = [ev] ∧ ev.control = .roster players ∧ (c'.wake 41).roster ≠ players := by
  unfold refuses at h
  split at h
  · rename_i host o hexec
    obtain ⟨hdst, h⟩ := (Bool.and_eq_true _ _).mp h
    split at h
    · rename_i c' out hrecv
      obtain ⟨hidle, h⟩ := (Bool.and_eq_true _ _).mp h
      obtain ⟨htasks, hphase⟩ := (Bool.and_eq_true _ _).mp hidle
      split at h
      · rename_i ev hev
        split at h
        · rename_i players hcontrol
          exact ⟨host, o, c', out, ev, players, hexec, of_decide_eq_true hdst, hrecv,
            of_decide_eq_true htasks, of_decide_eq_true hphase, hev, hcontrol, of_decide_eq_true h⟩
        · cases h
      · cases h
    · cases h
  · cases h

/-- A ROSTER that finds the client with a watermark half the ring away is lost on it. -/
theorem refused_of_settled {ls : List SessionLabel} {w : Watched} {n : Nat}
    (h : Runs Scenario.cfg (InOrder Scenario.cfg) ls w) (hs : isSettled w = true)
    (hf : refuses n w = true) : ∃ ls' w', Runs Scenario.cfg (InOrder Scenario.cfg) ls' w' ∧
      w'.1.client.cs.isJoined = true ∧ w'.2.accepted = some 1 ∧ ∃ j header players, 1 < j ∧
        Carries Scenario.cfg w'.1 j header (.roster players) ∧ j < w'.2.delivered ∧ j ∉ w'.2.queue ∧
        (j, true) ∉ w'.2.rosters := by
  have hquiet := quiet_of_isSettled hs
  simp only [isSettled, Bool.and_eq_true, decide_eq_true_eq] at hs
  obtain ⟨⟨⟨⟨⟨⟨⟨⟨⟨_, hlog⟩, hq⟩, ha⟩, hd⟩, hj⟩, _⟩, _⟩, hev⟩, hnet⟩ := hs
  have hmoves : ∀ (w : Watched) (l : SessionLabel), (∀ i nowUs t3Us, l ≠ .clientRecv i nowUs t3Us) →
      InOrder Scenario.cfg w l := by
    intro w l hl
    cases l with
    | clientRecv i nowUs t3Us => exact absurd rfl (hl i nowUs t3Us)
    | _ => trivial
  have hlen : 4 < w.1.net.length := by
    obtain ⟨_, _, _, h4, _⟩ := h.rosters (4, true) (by rw [hlog]; exact List.mem_singleton.mpr rfl)
    exact lt_of_net h4
  -- The denials.
  have hother : ¬ (pesterer = Scenario.cfg.hostAddr ∨ pesterer = Scenario.cfg.clientAddr) := by decide
  obtain ⟨sent, hexec, _, hdst⟩ := hquiet.denials hother "mal" n []
  obtain ⟨w₁, hr₁, hhost₁, hnet₁, hsame₁⟩ := h.talk hmoves hexec
  -- The farewell, of which the client gets one datagram.
  obtain ⟨host, o, c', out, ev, players, hexec₂, ho, hrecv, htasks, hphase, hev', hcontrol, hne⟩ :=
    refuses_spec hf
  rw [← hhost₁] at hexec₂
  obtain ⟨w₂, hr₂, _, hnet₂, hsame₂⟩ := hr₁.talk hmoves hexec₂
  rw [hnet₁, List.nil_append] at hnet₂
  let e : Envelope := { src := Scenario.hostAddr, dst := o.dst, bytes := o.bytes }
  let i := (w.1.net ++ posted Scenario.cfg sent).length
  have he : w₂.1.net[i]? = some e := by
    rw [hnet₂, List.getElem?_append_right le_rfl, Nat.sub_self]
    rfl
  have hi : 4 < i := by
    have hle : w.1.net.length ≤ i := by
      show _ ≤ (w.1.net ++ posted Scenario.cfg sent).length
      rw [List.length_append]
      exact Nat.le_add_right _ _
    omega
  have hdelivered : w₂.2.delivered = 5 := hsame₂.delivered.trans (hsame₁.delivered.trans hd)
  have horder : InOrder Scenario.cfg w₂ (.clientRecv i 41000 41000) := by
    intro _
    rw [hdelivered]
    refine ⟨hi, fun j e' hlo hhi hj => ?_⟩
    rw [hnet₂, List.getElem?_append_left hhi] at hj
    by_cases hold : j < w.1.net.length
    · rw [List.getElem?_append_left hold] at hj
      refine of_decide_eq_true (List.all_eq_true.mp hnet e' ?_)
      refine List.mem_iff_getElem?.mpr ⟨j - 5, ?_⟩
      rw [List.getElem?_drop, Nat.add_sub_cancel' hlo, hj]
    · rw [List.getElem?_append_right (Nat.le_of_not_lt hold)] at hj
      obtain ⟨o', ho', rfl⟩ := List.mem_map.mp (List.mem_of_getElem? hj)
      show o'.dst ≠ Scenario.clientAddr
      rw [hdst o' ho']
      decide
  have hclient : w₂.1.client = w.1.client := hsame₂.client.trans hsame₁.client
  rw [← hclient] at hrecv
  obtain ⟨ls', w', hr', hcs, hacc, hlog', hq', hd', hcar⟩ := hr₂.takes_refused he ho horder
    (hsame₂.queue.trans (hsame₁.queue.trans hq)) (hclient ▸ hev) hrecv hev' hcontrol htasks hphase hne
  refine ⟨ls', w', hr', ?_, ?_, i, ev.header, players, by omega, hcar, ?_, ?_, ?_⟩
  · rw [hcs, hclient]
    exact hj
  · exact hacc.trans (hsame₂.accepted.trans (hsame₁.accepted.trans ha))
  · rw [hd']
    exact Nat.lt_succ_self i
  · rw [hq']
    exact List.not_mem_nil
  · rw [hlog', hsame₂.rosters, hsame₁.rosters, hlog]
    intro hmem
    rcases List.mem_append.mp hmem with hmem | hmem
    · have := congrArg Prod.fst (List.mem_singleton.mp hmem)
      dsimp only at this
      omega
    · cases congrArg Prod.snd (List.mem_singleton.mp hmem)

/-- After 32767 denials the client refuses the next ROSTER. -/
theorem fresh_roster_refused : ¬ ∀ (cfg : SessionConfig) (ls : List SessionLabel) (w : Watched),
    Runs cfg (InOrder cfg) ls w → w.1.client.cs.isJoined = true → ∀ a j, w.2.accepted = some a → a < j →
      ∀ header players, Carries cfg w.1 j header (.roster players) → j < w.2.delivered →
        j ∉ w.2.queue → (j, true) ∈ w.2.rosters := by
  intro hall
  obtain ⟨w, hr, hp⟩ := settled_refuses
  obtain ⟨hs, hf⟩ := (Bool.and_eq_true _ _).mp hp
  obtain ⟨ls', w', hr', hj, ha, j, header, players, hlt, hcar, hd, hq, hno⟩ := refused_of_settled hr hs hf
  exact hno (hall Scenario.cfg ls' w' hr' hj 1 j ha hlt header players hcar hd hq)

end Session

end OnlineJam
