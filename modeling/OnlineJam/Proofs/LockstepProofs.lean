import OnlineJam.Core.Lockstep
import OnlineJam.Proofs.JamProofs
import Mathlib.Data.List.GetD

/-!
# Proofs: lock step is a mixing desk

Between two rounds a line holds the newest frames of its tape, as many as its depth allows, and every step
of a round finds what it needs. So the session is paced, and what it plays is read off the tapes.
-/

namespace OnlineJam

variable {n : Nat} {ε σ : Type}

/-! ## Lines -/

/-- What a decoder makes of a row of payloads: the frames, and the decoder and its buffer after them. -/
def AudioCodec.decodeAll (codec : AudioCodec n ε σ) :
    List Bytes → σ → Samples n → List (Samples n) × σ × Samples n
  | [], decoder, last => ([], decoder, last)
  | payload :: payloads, decoder, last =>
    let (_, pcm, decoder) := codec.decode decoder (some payload) last
    let (frames, after) := codec.decodeAll payloads decoder pcm
    (pcm :: frames, after)

theorem AudioCodec.decodeAll_snoc (codec : AudioCodec n ε σ) (payloads : List Bytes) (payload : Bytes)
    (decoder : σ) (last : Samples n) :
    let before := codec.decodeAll payloads decoder last
    let r := codec.decode before.2.1 (some payload) before.2.2
    codec.decodeAll (payloads ++ [payload]) decoder last = (before.1 ++ [r.2.1], r.2.2, r.2.1) := by
  induction payloads generalizing decoder last with
  | nil => rfl
  | cons p payloads ih =>
    simp only [List.cons_append, AudioCodec.decodeAll, ih]

theorem AudioCodec.length_decodeAll (codec : AudioCodec n ε σ) (payloads : List Bytes) (decoder : σ)
    (last : Samples n) : (codec.decodeAll payloads decoder last).1.length = payloads.length := by
  induction payloads generalizing decoder last with
  | nil => rfl
  | cons p payloads ih => simp only [AudioCodec.decodeAll, List.length_cons, ih]

/-- Nothing is on its way, and what waits are the newest `count` frames of the tape. -/
structure Holds (codec : AudioCodec n ε σ) (count : Nat) (l : Line n ε σ) (t : Tape n ε σ) : Prop where
  encoder : l.encoder = t.encoder
  flying : l.flying = []
  waiting : codec.decodeAll l.waiting l.decoder l.last = ((t.past.take count).reverse, t.decoder, t.last)
  playing : l.playing = true ↔ count < t.past.length

namespace Holds

variable {codec : AudioCodec n ε σ} {count depth : Nat} {l : Line n ε σ} {t : Tape n ε σ}

theorem new (codec : AudioCodec n ε σ) (count : Nat) (encoder : ε) (decoder : σ) :
    Holds codec count (Line.new encoder decoder) (Tape.new encoder decoder) := by
  refine ⟨rfl, rfl, ?_, ?_⟩
  · simp [Line.new, Tape.new, AudioCodec.decodeAll]
  · simp [Line.new, Tape.new]

theorem length (h : Holds codec count l t) : l.waiting.length = min count t.past.length := by
  rw [← codec.length_decodeAll l.waiting l.decoder l.last, h.waiting, List.length_reverse, List.length_take]

/-- A frame is sent and arrives. -/
theorem carry (h : Holds codec count l t) (hencodes : ∀ encoder x, (codec.encode encoder x).1.isSome = true)
    (x : Samples n) : Holds codec (count + 1) (l.send codec x).deliver (t.record codec x) := by
  have hsome := hencodes t.encoder x
  unfold Tape.record
  rw [Line.send_eq, h.encoder, h.flying]
  generalize codec.encode t.encoder x = r at hsome ⊢
  obtain ⟨encoded, encoder⟩ := r
  cases encoded with
  | none => cases hsome
  | some payload =>
    refine ⟨rfl, rfl, ?_, ?_⟩
    · simp only [Line.deliver, List.nil_append, Option.toList_some]
      rw [codec.decodeAll_snoc, h.waiting]
      dsimp only
      rw [List.take_succ_cons, List.reverse_cons]
    · dsimp only [Line.deliver, List.nil_append, Option.toList_some]
      rw [List.length_cons, Nat.add_lt_add_iff_right]
      exact h.playing

/-- A line that has all it can hold has the next frame. -/
theorem ready (h : Holds codec depth l t) : l.Ready depth := by
  intro hplaying
  have hlen := h.length
  have := h.playing.mp hplaying
  omega

/-- A tick plays the frame that is `depth` old. -/
theorem play (h : Holds codec depth l t) (hpos : 1 ≤ depth) :
    (l.play codec depth).1 = t.delayed depth ∧ Holds codec (depth - 1) (l.play codec depth).2 t := by
  have hlen := h.length
  have hplaying := h.playing
  have hwaiting := h.waiting
  by_cases hdepth : depth ≤ t.past.length
  · -- There is such a frame.
    obtain ⟨k, rfl⟩ : ∃ k, depth = k + 1 := ⟨depth - 1, by omega⟩
    have hk : k < t.past.length := hdepth
    rw [List.take_succ_eq_append_getElem hk, List.reverse_append, List.reverse_singleton,
      List.singleton_append] at hwaiting
    cases hw : l.waiting with
    | nil =>
      rw [hw, List.length_nil] at hlen
      omega
    | cons payload waiting =>
      rw [hw] at hwaiting
      rw [Line.play_advances hw (Or.inr (by omega))]
      simp only [AudioCodec.decodeAll, Prod.mk.injEq, List.cons.injEq] at hwaiting
      obtain ⟨⟨hout, hrest⟩, hdecoder⟩ := hwaiting
      refine ⟨?_, h.encoder, h.flying, ?_, ?_⟩
      · rw [Tape.delayed, Nat.add_sub_cancel, List.getD_eq_getElem _ _ hk]
        exact hout
      · rw [Line.advance, hw]
        exact Prod.ext hrest hdecoder
      · rw [Nat.add_sub_cancel]
        exact iff_of_true rfl hk
  · -- Not yet.
    rw [not_le] at hdepth
    have hidle : l.playing = false := by
      rw [← Bool.not_eq_true, hplaying]
      omega
    rw [Line.play_waits hidle (by omega)]
    refine ⟨?_, h.encoder, h.flying, ?_, ?_⟩
    · rw [Tape.delayed, List.getD_eq_default _ _ (by omega)]
    · rw [hwaiting, List.take_of_length_le hdepth.le, List.take_of_length_le (by omega)]
    · rw [hplaying]
      omega

end Holds

/-! ## Phases of a round -/

/-- The part of a session that is about one client. -/
structure Seat (n : Nat) (ε σ : Type) where
  up : Line n ε σ
  down : Line n ε σ
  listener : Listener

def IdealJam.seat (i : IdealJam n ε σ) (c : Fin maxClients) : Seat n ε σ :=
  { up := i.up c, down := i.down c, listener := i.listeners c }

theorem IdealJam.of_seat {i : IdealJam n ε σ} {c : Fin maxClients} {s : Seat n ε σ} (h : i.seat c = s) :
    i.up c = s.up ∧ i.down c = s.down ∧ i.listeners c = s.listener := by
  subst h
  exact ⟨rfl, rfl, rfl⟩

/-- One step for each client that is about its seat only: what is heard, the seat after it, and when it
comes in time. -/
structure Moves (codec : AudioCodec n ε σ) (cfg : JamConfig) (events : Fin maxClients → JamEvent n)
    (move : Fin maxClients → Seat n ε σ → Option (Sound n) × Seat n ε σ)
    (inTime : Fin maxClients → Seat n ε σ → Prop) : Prop where
  sound : ∀ (i : IdealJam n ε σ) c, (i.step codec cfg (events c)).1 = (move c (i.seat c)).1
  mixer : ∀ (i : IdealJam n ε σ) c, (i.step codec cfg (events c)).2.mixer = i.mixer
  seat : ∀ (i : IdealJam n ε σ) c, (i.step codec cfg (events c)).2.seat c = (move c (i.seat c)).2
  others : ∀ (i : IdealJam n ε σ) c d, d ≠ c → (i.step codec cfg (events c)).2.seat d = i.seat d
  paced : ∀ (i : IdealJam n ε σ) c, inTime c (i.seat c) → i.Paced cfg (events c)

section Phases

variable {codec : AudioCodec n ε σ} {cfg : JamConfig}

/-- The steps for different clients do not get into each other's way. -/
theorem Moves.run {events : Fin maxClients → JamEvent n}
    {move : Fin maxClients → Seat n ε σ → Option (Sound n) × Seat n ε σ}
    {inTime : Fin maxClients → Seat n ε σ → Prop} (h : Moves codec cfg events move inTime)
    {cs : List (Fin maxClients)} (hcs : cs.Nodup) (i : IdealJam n ε σ) (htime : ∀ c ∈ cs, inTime c (i.seat c)) :
    let r := i.run codec cfg (cs.map events)
    i.PacedRun codec cfg (cs.map events) ∧
      r.1 = cs.flatMap (fun c => (move c (i.seat c)).1.toList) ∧ r.2.mixer = i.mixer ∧
      (∀ c ∈ cs, r.2.seat c = (move c (i.seat c)).2) ∧ ∀ c ∉ cs, r.2.seat c = i.seat c := by
  induction cs generalizing i with
  | nil => exact ⟨trivial, rfl, rfl, fun c hc => (by cases hc), fun c _ => rfl⟩
  | cons c cs ih =>
    obtain ⟨hc, hcs⟩ := List.nodup_cons.mp hcs
    have hsame : ∀ d ∈ cs, (i.step codec cfg (events c)).2.seat d = i.seat d := by
      intro d hd
      refine h.others i c d fun heq => hc ?_
      rw [← heq]
      exact hd
    obtain ⟨hpaced, hsounds, hmixer, hin, hout⟩ := ih hcs (i.step codec cfg (events c)).2 (by
      intro d hd
      rw [hsame d hd]
      exact htime d (List.mem_cons_of_mem _ hd))
    refine ⟨⟨h.paced i c (htime c List.mem_cons_self), hpaced⟩, ?_, hmixer.trans (h.mixer i c), ?_, ?_⟩
    · rw [List.flatMap_cons, List.map_cons, IdealJam.run]
      dsimp only
      rw [hsounds, h.sound]
      congr 1
      exact List.flatMap_congr fun d hd => by rw [hsame d hd]
    · intro d hd
      by_cases hdc : d = c
      · subst hdc
        exact (hout d hc).trans (h.seat i d)
      · have hmem := (List.mem_cons.mp hd).resolve_left hdc
        rw [← hsame d hmem]
        exact hin d hmem
    · intro d hd
      rw [List.mem_cons, not_or] at hd
      exact (hout d hd.2).trans (h.others i c d hd.1)

namespace IdealJam

theorem run_append (i : IdealJam n ε σ) (es fs : List (JamEvent n)) :
    i.run codec cfg (es ++ fs) =
      ((i.run codec cfg es).1 ++ ((i.run codec cfg es).2.run codec cfg fs).1,
        ((i.run codec cfg es).2.run codec cfg fs).2) := by
  induction es generalizing i with
  | nil => rfl
  | cons e es ih =>
    simp only [List.cons_append, run, ih, List.append_assoc]

theorem PacedRun.append {i : IdealJam n ε σ} {es fs : List (JamEvent n)} (h : i.PacedRun codec cfg es)
    (hf : (i.run codec cfg es).2.PacedRun codec cfg fs) : i.PacedRun codec cfg (es ++ fs) := by
  induction es generalizing i with
  | nil => exact hf
  | cons e es ih => exact ⟨h.1, ih h.2 hf⟩

theorem step_client (i : IdealJam n ε σ) (c : Fin maxClients) (masterGain monitorGain : ℚ)
    (localIn : Samples n) :
    let heard := (i.listeners c).hear (cfg.monitor c.succ) masterGain monitorGain
      (i.heardDown codec cfg c).1 localIn
    i.step codec cfg (.client c masterGain monitorGain localIn) = (some (c.succ, heard.1),
      { i with
        up := Function.update i.up c (if cfg.present c then (i.up c).send codec localIn else i.up c)
        down := Function.update i.down c (i.heardDown codec cfg c).2
        listeners := Function.update i.listeners c heard.2 }) := rfl

theorem hostFrame_eq (codec : AudioCodec n ε σ) (cfg : JamConfig) (i : IdealJam n ε σ)
    (controls : HostControls) (localIn : Samples n) {mixed : MixOutput n × HostMixer n}
    (h : i.mixer.processFrame (mixInput cfg controls localIn fun c => (i.heardUp codec cfg c).1) = mixed) :
    i.hostFrame codec cfg controls localIn = (mixed.1.toHost,
      { i with
        mixer := mixed.2
        up := fun c => (i.heardUp codec cfg c).2
        down := fun c => match mixed.1.toEncoder c with
          | some frame => (i.down c).send codec frame
          | none => i.down c }) := by
  subst h
  rfl

/-- The callbacks of the clients. -/
theorem moves_client (codec : AudioCodec n ε σ) (cfg : JamConfig) (r : Round n) :
    Moves codec cfg (fun c => .client c (r.masterGain c) (r.monitorGain c) (r.clientIn c))
      (fun c s =>
        let played := if cfg.present c then s.down.play codec (cfg.depth c.succ) else (fun _ => 0, s.down)
        let heard := s.listener.hear (cfg.monitor c.succ) (r.masterGain c) (r.monitorGain c) played.1
          (r.clientIn c)
        (some (c.succ, heard.1),
          { up := if cfg.present c then s.up.send codec (r.clientIn c) else s.up
            down := played.2
            listener := heard.2 }))
      (fun c s => cfg.present c = true → s.down.Ready (cfg.depth c.succ)) where
  sound := fun i c => rfl
  mixer := fun i c => rfl
  seat := fun i c => by simp only [step_client, seat, Function.update_self]; rfl
  others := fun i c d hd => by simp only [step_client, seat, Function.update_of_ne hd]
  paced := fun i c h => h

theorem moves_deliverUp (codec : AudioCodec n ε σ) (cfg : JamConfig) (nowUs : Nat) :
    Moves codec cfg (fun c => .deliverUp c nowUs) (fun _ s => (none, { s with up := s.up.deliver }))
      (fun _ (s : Seat n ε σ) => s.up.HasRoom (cfg.depth hostPlayer)) where
  sound := fun i c => rfl
  mixer := fun i c => rfl
  seat := fun i c => by simp only [step, seat, Function.update_self]
  others := fun i c d hd => by simp only [step, seat, Function.update_of_ne hd]
  paced := fun i c h => h

theorem moves_deliverDown (codec : AudioCodec n ε σ) (cfg : JamConfig) (nowUs : Nat) :
    Moves codec cfg (fun c => .deliverDown c nowUs) (fun _ s => (none, { s with down := s.down.deliver }))
      (fun c (s : Seat n ε σ) => s.down.HasRoom (cfg.depth c.succ)) where
  sound := fun i c => rfl
  mixer := fun i c => rfl
  seat := fun i c => by simp only [step, seat, Function.update_self]
  others := fun i c d hd => by simp only [step, seat, Function.update_of_ne hd]
  paced := fun i c h => h

end IdealJam

/-! ## Rounds -/

def Line.Idle (l : Line n ε σ) : Prop := l.flying = [] ∧ l.waiting = []

/-- A moment between two phases: the mixer, the gains of the clients, and what is known of the lines of
those who are there. -/
structure Stage (cfg : JamConfig) (mixer : HostMixer n) (listeners : Fin maxClients → Listener)
    (up down : Fin maxClients → Line n ε σ → Prop) (i : IdealJam n ε σ) : Prop where
  mixer : i.mixer = mixer
  listeners : ∀ c, i.listeners c = listeners c
  up : ∀ c, cfg.present c = true → up c (i.up c)
  down : ∀ c, cfg.present c = true → down c (i.down c)
  absent : ∀ c, cfg.present c = false → (i.up c).Idle ∧ (i.down c).Idle

/-- A frame has been put into a line, and has not arrived yet. -/
def Flies (codec : AudioCodec n ε σ) (count : Nat) (x : Samples n) (t : Tape n ε σ) (l : Line n ε σ) : Prop :=
  ∃ l', l = l'.send codec x ∧ Holds codec count l' t

/-- Between two rounds. -/
def Keeps (codec : AudioCodec n ε σ) (cfg : JamConfig) (i : IdealJam n ε σ) (d : Desk n ε σ) : Prop :=
  Stage cfg d.mixer d.listeners (fun c l => Holds codec (cfg.depth hostPlayer - 1) l (d.up c))
    (fun c l => Holds codec (cfg.depth c.succ) l (d.down c)) i

theorem keeps_start (codec : AudioCodec n ε σ) (cfg : JamConfig) (encoder : ε) (decoder : σ) :
    Keeps codec cfg (IdealJam.start cfg encoder decoder) (Desk.start cfg encoder decoder) :=
  ⟨rfl, fun _ => rfl, fun _ _ => Holds.new codec _ encoder decoder,
    fun _ _ => Holds.new codec _ encoder decoder, fun _ _ => ⟨⟨rfl, rfl⟩, rfl, rfl⟩⟩

theorem Stage.mono {mixer : HostMixer n} {listeners : Fin maxClients → Listener}
    {up down up' down' : Fin maxClients → Line n ε σ → Prop} {i : IdealJam n ε σ}
    (h : Stage cfg mixer listeners up down i) (hup : ∀ c, cfg.present c = true → up c = up' c)
    (hdown : ∀ c, cfg.present c = true → down c = down' c) : Stage cfg mixer listeners up' down' i :=
  ⟨h.mixer, h.listeners, fun c hc => hup c hc ▸ h.up c hc, fun c hc => hdown c hc ▸ h.down c hc, h.absent⟩

theorem Line.Idle.deliver {l : Line n ε σ} (h : l.Idle) : l.deliver.Idle := by
  unfold Line.deliver
  split
  · rename_i hf
    rw [h.1] at hf
    cases hf
  · exact h

theorem Line.hasRoom_of_le {depth : Nat} {l : Line n ε σ} (hdepth : 1 ≤ depth ∧ depth ≤ ringSlots)
    (h : l.waiting.length ≤ depth - 1) : l.HasRoom depth := by
  obtain ⟨hpos, hring⟩ := hdepth
  change depth ≤ 64 at hring
  change l.waiting.length < min (depth + 2) 64
  omega

theorem Line.Idle.hasRoom {depth : Nat} {l : Line n ε σ} (h : l.Idle)
    (hdepth : 1 ≤ depth ∧ depth ≤ ringSlots) : l.HasRoom depth := by
  refine Line.hasRoom_of_le hdepth ?_
  rw [h.2]
  exact Nat.zero_le _

theorem Flies.hasRoom {depth : Nat} {x : Samples n} {t : Tape n ε σ} {l : Line n ε σ}
    (h : Flies codec (depth - 1) x t l) (hdepth : 1 ≤ depth ∧ depth ≤ ringSlots) : l.HasRoom depth := by
  obtain ⟨l', rfl, hholds⟩ := h
  refine Line.hasRoom_of_le hdepth ?_
  have hlen := hholds.length
  show l'.waiting.length ≤ depth - 1
  omega

theorem Flies.deliver {depth : Nat} {x : Samples n} {t : Tape n ε σ} {l : Line n ε σ}
    (h : Flies codec (depth - 1) x t l) (hdepth : 1 ≤ depth)
    (hencodes : ∀ encoder x, (codec.encode encoder x).1.isSome = true) :
    Holds codec depth l.deliver (t.record codec x) := by
  obtain ⟨l', rfl, hholds⟩ := h
  have hnext := hholds.carry hencodes x
  rwa [Nat.sub_add_cancel hdepth] at hnext

/-- There is a frame for everybody who is there. -/
theorem Desk.toEncoder_isSome (d : Desk n ε σ) (r : Round n) (c : Fin maxClients) :
    ((d.mix codec cfg r).1.toEncoder c).isSome = cfg.present c := by
  rw [MixOutput.toEncoder, Option.isSome_map]
  exact d.mixer.processFrame_clientOut_isSome _ c

section Round

variable {mixer : HostMixer n} {listeners : Fin maxClients → Listener}
  {up down : Fin maxClients → Line n ε σ → Prop} {i : IdealJam n ε σ} {d : Desk n ε σ}

/-- The callbacks of the clients. -/
theorem Keeps.clients (h : Keeps codec cfg i d) (hdepth : ∀ p, 1 ≤ cfg.depth p ∧ cfg.depth p ≤ ringSlots)
    (r : Round n) :
    let es := (List.finRange maxClients).map fun c =>
      JamEvent.client c (r.masterGain c) (r.monitorGain c) (r.clientIn c)
    i.PacedRun codec cfg es ∧
      (i.run codec cfg es).1 = (List.finRange maxClients).map (fun c => (c.succ, (d.hear cfg r c).1)) ∧
      Stage cfg d.mixer (fun c => (d.hear cfg r c).2)
        (fun c => Flies codec (cfg.depth hostPlayer - 1) (r.clientIn c) (d.up c))
        (fun c l => Holds codec (cfg.depth c.succ - 1) l (d.down c)) (i.run codec cfg es).2 := by
  obtain ⟨hpaced, hsounds, hmixer, hseat, -⟩ := (IdealJam.moves_client codec cfg r).run
    (List.nodup_finRange maxClients) i fun c _ hc => (h.down c hc).ready
  have hplayed : ∀ c, (if cfg.present c = true then (i.down c).play codec (cfg.depth c.succ)
      else (fun _ => 0, i.down c)).1 =
        if cfg.present c = true then (d.down c).delayed (cfg.depth c.succ) else fun _ => 0 := by
    intro c
    by_cases hc : cfg.present c = true
    · rw [if_pos hc, if_pos hc]
      exact ((h.down c hc).play (hdepth c.succ).1).1
    · rw [if_neg hc, if_neg hc]
  have hheard : ∀ c, (i.listeners c).hear (cfg.monitor c.succ) (r.masterGain c) (r.monitorGain c)
      (if cfg.present c = true then (i.down c).play codec (cfg.depth c.succ)
        else (fun _ => 0, i.down c)).1 (r.clientIn c) = d.hear cfg r c := by
    intro c
    rw [hplayed, h.listeners]
    rfl
  refine ⟨hpaced, ?_, hmixer.trans h.mixer, fun c => ?_, fun c hc => ?_, fun c hc => ?_, fun c hc => ?_⟩
  · rw [hsounds]
    dsimp only [IdealJam.seat]
    simp only [hheard, Option.toList_some]
    exact (List.map_eq_flatMap ..).symm
  all_goals
    obtain ⟨hup, hdown, hlistener⟩ := IdealJam.of_seat (hseat c (List.mem_finRange c))
    dsimp only [IdealJam.seat] at hup hdown hlistener
  · rw [hlistener, hheard]
  · rw [if_pos hc] at hup
    exact ⟨i.up c, hup, h.up c hc⟩
  · rw [if_pos hc] at hdown
    rw [hdown]
    exact ((h.down c hc).play (hdepth c.succ).1).2
  · have hno : ¬ cfg.present c = true := by
      rw [hc]
      exact Bool.false_ne_true
    rw [if_neg hno] at hup hdown
    rw [hup, hdown]
    exact h.absent c hc

/-- The datagrams of the clients arrive. -/
theorem Stage.deliverUp {x : Fin maxClients → Samples n} {t : Fin maxClients → Tape n ε σ}
    (h : Stage cfg mixer listeners (fun c => Flies codec (cfg.depth hostPlayer - 1) (x c) (t c)) down i)
    (hencodes : ∀ encoder x, (codec.encode encoder x).1.isSome = true)
    (hdepth : ∀ p, 1 ≤ cfg.depth p ∧ cfg.depth p ≤ ringSlots) (nowUs : Nat) :
    let es := (List.finRange maxClients).map fun c => JamEvent.deliverUp c nowUs
    i.PacedRun codec cfg es ∧ (i.run codec cfg es).1 = [] ∧
      Stage cfg mixer listeners (fun c l => Holds codec (cfg.depth hostPlayer) l ((t c).record codec (x c))) down
        (i.run codec cfg es).2 := by
  have hroom : ∀ c, (i.up c).HasRoom (cfg.depth hostPlayer) := by
    intro c
    by_cases hc : cfg.present c = true
    · exact (h.up c hc).hasRoom (hdepth hostPlayer)
    · exact (h.absent c (Bool.eq_false_iff.mpr hc)).1.hasRoom (hdepth hostPlayer)
  obtain ⟨hpaced, hsounds, hmixer, hseat, -⟩ := (IdealJam.moves_deliverUp codec cfg nowUs).run
    (List.nodup_finRange maxClients) i fun c _ => hroom c
  refine ⟨hpaced, by simp [hsounds], hmixer.trans h.mixer, fun c => ?_, fun c hc => ?_, fun c hc => ?_,
    fun c hc => ?_⟩
  all_goals
    obtain ⟨hup, hdown, hlistener⟩ := IdealJam.of_seat (hseat c (List.mem_finRange c))
    dsimp only [IdealJam.seat] at hup hdown hlistener
  · rw [hlistener]
    exact h.listeners c
  · rw [hup]
    exact (h.up c hc).deliver (hdepth hostPlayer).1 hencodes
  · rw [hdown]
    exact h.down c hc
  · rw [hup, hdown]
    exact ⟨(h.absent c hc).1.deliver, (h.absent c hc).2⟩

theorem Stage.deliverDown {x : Fin maxClients → Samples n} {t : Fin maxClients → Tape n ε σ}
    (h : Stage cfg mixer listeners up (fun c => Flies codec (cfg.depth c.succ - 1) (x c) (t c)) i)
    (hencodes : ∀ encoder x, (codec.encode encoder x).1.isSome = true)
    (hdepth : ∀ p, 1 ≤ cfg.depth p ∧ cfg.depth p ≤ ringSlots) (nowUs : Nat) :
    let es := (List.finRange maxClients).map fun c => JamEvent.deliverDown c nowUs
    i.PacedRun codec cfg es ∧ (i.run codec cfg es).1 = [] ∧
      Stage cfg mixer listeners up
        (fun c l => Holds codec (cfg.depth c.succ) l ((t c).record codec (x c))) (i.run codec cfg es).2 := by
  have hroom : ∀ c, (i.down c).HasRoom (cfg.depth c.succ) := by
    intro c
    by_cases hc : cfg.present c = true
    · exact (h.down c hc).hasRoom (hdepth c.succ)
    · exact (h.absent c (Bool.eq_false_iff.mpr hc)).2.hasRoom (hdepth c.succ)
  obtain ⟨hpaced, hsounds, hmixer, hseat, -⟩ := (IdealJam.moves_deliverDown codec cfg nowUs).run
    (List.nodup_finRange maxClients) i fun c _ => hroom c
  refine ⟨hpaced, by simp [hsounds], hmixer.trans h.mixer, fun c => ?_, fun c hc => ?_, fun c hc => ?_,
    fun c hc => ?_⟩
  all_goals
    obtain ⟨hup, hdown, hlistener⟩ := IdealJam.of_seat (hseat c (List.mem_finRange c))
    dsimp only [IdealJam.seat] at hup hdown hlistener
  · rw [hlistener]
    exact h.listeners c
  · rw [hup]
    exact h.up c hc
  · rw [hdown]
    exact (h.down c hc).deliver (hdepth c.succ).1 hencodes
  · rw [hup, hdown]
    exact ⟨(h.absent c hc).1, (h.absent c hc).2.deliver⟩

/-- The callback of the host. -/
theorem Stage.host {r : Round n}
    (h : Stage cfg d.mixer listeners (fun c l => Holds codec (cfg.depth hostPlayer) l (d.recordUp codec cfg r c))
      (fun c l => Holds codec (cfg.depth c.succ - 1) l (d.down c)) i)
    (hdepth : ∀ p, 1 ≤ cfg.depth p ∧ cfg.depth p ≤ ringSlots) :
    let es := [JamEvent.host r.controls r.hostIn]
    let out := (d.mix codec cfg r).1
    i.PacedRun codec cfg es ∧ (i.run codec cfg es).1 = [(hostPlayer, out.toHost)] ∧
      Stage cfg (d.mix codec cfg r).2 listeners
        (fun c l => Holds codec (cfg.depth hostPlayer - 1) l (d.recordUp codec cfg r c))
        (fun c => Flies codec (cfg.depth c.succ - 1) ((out.toEncoder c).getD fun _ => 0) (d.down c))
        (i.run codec cfg es).2 := by
  have hheard : ∀ c, (i.heardUp codec cfg c).1 =
      if cfg.present c then (d.recordUp codec cfg r c).delayed (cfg.depth hostPlayer) else fun _ => 0 := by
    intro c
    unfold IdealJam.heardUp
    by_cases hc : cfg.present c = true
    · rw [if_pos hc, if_pos hc]
      exact ((h.up c hc).play (hdepth hostPlayer).1).1
    · rw [if_neg hc, if_neg hc]
  have hframe : i.mixer.processFrame (IdealJam.mixInput cfg r.controls r.hostIn
      fun c => (i.heardUp codec cfg c).1) = d.mix codec cfg r := by
    rw [h.mixer, funext hheard]
    rfl
  have hstep := i.hostFrame_eq codec cfg r.controls r.hostIn hframe
  have hrun : i.run codec cfg [.host r.controls r.hostIn] = ([(hostPlayer, (d.mix codec cfg r).1.toHost)],
      { i with
        mixer := (d.mix codec cfg r).2
        up := fun c => (i.heardUp codec cfg c).2
        down := fun c => match (d.mix codec cfg r).1.toEncoder c with
          | some frame => (i.down c).send codec frame
          | none => i.down c }) := by
    simp only [IdealJam.run, IdealJam.step, hstep, Option.toList_some, List.append_nil]
  dsimp only
  rw [hrun]
  refine ⟨⟨fun c hc => (h.up c hc).ready, trivial⟩, rfl, rfl, h.listeners, fun c hc => ?_, fun c hc => ?_,
    fun c hc => ?_⟩
  · dsimp only [IdealJam.heardUp]
    rw [if_pos hc]
    exact ((h.up c hc).play (hdepth hostPlayer).1).2
  · obtain ⟨frame, hout⟩ := Option.isSome_iff_exists.mp ((d.toEncoder_isSome r c).trans hc)
    dsimp only
    rw [hout]
    exact ⟨i.down c, rfl, h.down c hc⟩
  · have hnone : (d.mix codec cfg r).1.toEncoder c = none := by
      rw [← Option.not_isSome_iff_eq_none, d.toEncoder_isSome, hc]
      exact Bool.false_ne_true
    have hno : ¬ cfg.present c = true := by
      rw [hc]
      exact Bool.false_ne_true
    dsimp only [IdealJam.heardUp]
    rw [hnone, if_neg hno]
    exact h.absent c hc

/-- The step lemma. -/
theorem Keeps.round (h : Keeps codec cfg i d)
    (hencodes : ∀ encoder x, (codec.encode encoder x).1.isSome = true)
    (hdepth : ∀ p, 1 ≤ cfg.depth p ∧ cfg.depth p ≤ ringSlots) (r : Round n) :
    i.PacedRun codec cfg r.events ∧ (i.run codec cfg r.events).1 = (d.round codec cfg r).1 ∧
      Keeps codec cfg (i.run codec cfg r.events).2 (d.round codec cfg r).2 := by
  obtain ⟨hpaced1, hsounds1, h1⟩ := h.clients hdepth r
  obtain ⟨hpaced2, hsounds2, h2⟩ := h1.deliverUp hencodes hdepth r.nowUs
  have h2' : Stage cfg d.mixer (fun c => (d.hear cfg r c).2)
      (fun c l => Holds codec (cfg.depth hostPlayer) l (d.recordUp codec cfg r c))
      (fun c l => Holds codec (cfg.depth c.succ - 1) l (d.down c)) _ :=
    h2.mono (fun c hc => by rw [Desk.recordUp, if_pos hc]) fun _ _ => rfl
  obtain ⟨hpaced3, hsounds3, h3⟩ := h2'.host hdepth
  obtain ⟨hpaced4, hsounds4, h4⟩ := h3.deliverDown hencodes hdepth r.nowUs
  have hevents : r.events = (List.finRange maxClients).map
      (fun c => .client c (r.masterGain c) (r.monitorGain c) (r.clientIn c)) ++
    ((List.finRange maxClients).map (fun c => .deliverUp c r.nowUs) ++ ([.host r.controls r.hostIn] ++
      (List.finRange maxClients).map fun c => .deliverDown c r.nowUs)) := by
    rw [Round.events, List.append_assoc]
    rfl
  rw [hevents]
  refine ⟨hpaced1.append (hpaced2.append (hpaced3.append hpaced4)), ?_, ?_⟩
  · simp only [IdealJam.run_append, hsounds1, hsounds2, hsounds3, hsounds4, List.nil_append,
      List.append_nil]
    rfl
  · simp only [IdealJam.run_append]
    refine h4.mono (fun _ _ => rfl) fun c hc => ?_
    obtain ⟨frame, hout⟩ := Option.isSome_iff_exists.mp ((d.toEncoder_isSome r c).trans hc)
    show _ = fun l => Holds codec (cfg.depth c.succ) l
      (match (d.mix codec cfg r).1.toEncoder c with
        | some frame => (d.down c).record codec frame
        | none => d.down c)
    rw [hout]
    rfl

end Round

/-- The run lemma. -/
theorem Keeps.run {i : IdealJam n ε σ} {d : Desk n ε σ} (h : Keeps codec cfg i d)
    (hencodes : ∀ encoder x, (codec.encode encoder x).1.isSome = true)
    (hdepth : ∀ p, 1 ≤ cfg.depth p ∧ cfg.depth p ≤ ringSlots) (rs : List (Round n)) :
    i.PacedRun codec cfg (rs.flatMap Round.events) ∧
      (i.run codec cfg (rs.flatMap Round.events)).1 = d.run codec cfg rs := by
  induction rs generalizing i d with
  | nil => exact ⟨trivial, rfl⟩
  | cons r rs ih =>
    obtain ⟨hpaced, hsounds, hnext⟩ := h.round hencodes hdepth r
    obtain ⟨hrest, hplayed⟩ := ih hnext
    rw [List.flatMap_cons, IdealJam.run_append]
    refine ⟨hpaced.append hrest, ?_⟩
    dsimp only
    rw [hsounds, hplayed]
    rfl

end Phases

/-- In lock step, with fixed depths, no drift correction and a codec that makes a packet of every frame,
everybody plays what a mixing desk plays whose inputs come `depth hostPlayer - 1` rounds late and whose
outputs come `depth c.succ` rounds late: nothing is lost, played twice or out of order, however long the
session lasts. -/
theorem Jam.lockstep_is_desk {codec : AudioCodec n ε σ} (hcodec : codec.Sound)
    (hencodes : ∀ encoder x, (codec.encode encoder x).1.isSome = true) {cfg : JamConfig}
    (hdepth : ∀ p, 1 ≤ cfg.depth p ∧ cfg.depth p ≤ ringSlots) (encoder : ε) (decoder : σ)
    (rs : List (Round n)) :
    ∃ j, (Jam.start cfg encoder decoder).run codec cfg (rs.flatMap Round.events) =
      some ((Desk.start cfg encoder decoder).run codec cfg rs, j) := by
  obtain ⟨hpaced, hplayed⟩ := (keeps_start codec cfg encoder decoder).run hencodes hdepth rs
  obtain ⟨j, hrun, -⟩ := (mirrors_start codec cfg encoder decoder).run hcodec (fun p => (hdepth p).1) hpaced
  rw [hplayed] at hrun
  exact ⟨j, hrun⟩

/-- Everybody plays the same sample. -/
def allPlay (x : ℚ) : Round 1 where
  nowUs := 0
  controls := { gains := fun _ => 1, muted := fun _ => false, soloed := fun _ => false, monitorGain := 0 }
  hostIn := fun _ => x
  masterGain := fun _ => 1
  monitorGain := fun _ => 1
  clientIn := fun _ _ => x

theorem Jam.lockstep_is_desk_trio : ∃ j, (Jam.start trio () ()).run pcmS16 trio
    ([allPlay (1 / 2), allPlay (1 / 4), allPlay 1].flatMap Round.events) =
    some ((Desk.start trio () ()).run pcmS16 trio [allPlay (1 / 2), allPlay (1 / 4), allPlay 1], j) :=
  Jam.lockstep_is_desk (pcmS16_sound (by decide)) (pcmS16_encodes (by decide)) (by decide) () () _

end OnlineJam
