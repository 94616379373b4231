import OnlineJam.Proofs.RestartProofs

/-!
# Proofs: which fixed depths lose nothing

A fixed depth that the ring has room for plays a perfect stream in order. A larger one waits until the
first frame has been overwritten, or for a depth that the buffer never reports.
-/

namespace OnlineJam

variable {n : Nat} {σ : Type}

/-! ## Controller -/

/-- The controller in fixed-depth mode with the narrow deadband and nothing latched. -/
structure PlayoutController.Fixed (c : PlayoutController) (depth : Int) : Prop where
  minFrames : c.minFrames = depth
  maxFrames : c.maxFrames = depth
  target : c.target = depth
  deadband : c.deadband = 1
  pending : c.pending = .none

namespace PlayoutController

variable {c : PlayoutController} {depth : Int}

/-- A hit leaves the depth alone, whatever the jitter. -/
theorem Fixed.hit (h : c.Fixed depth) (jitterUs : ℚ) : (c.postPop true jitterUs).1 = false ∧
    (c.postPop true jitterUs).2.Fixed depth ∧ (c.postPop true jitterUs).2.primed = c.primed := by
  rw [postPop, if_pos rfl, evaluate]
  dsimp only
  split
  · refine ⟨rfl, ⟨h.minFrames, h.maxFrames, ?_, h.deadband, h.pending⟩, rfl⟩
    dsimp only
    rw [h.minFrames, h.maxFrames]
    exact max_eq_left (min_le_right _ _)
  · exact ⟨rfl, ⟨h.minFrames, h.maxFrames, h.target, h.deadband, h.pending⟩, rfl⟩

theorem Fixed.observeDepth (h : c.Fixed depth) {seen : Int} (hlo : depth - 1 ≤ seen)
    (hhi : seen ≤ depth + 1) : c.observeDepth seen = c := by
  rw [PlayoutController.observeDepth, h.target, h.deadband]
  split_ifs
  · rfl
  · omega
  · omega
  · rfl

theorem Fixed.takeAdjustment (h : c.Fixed depth) : c.takeAdjustment = (.none, c) := by
  obtain ⟨-, -, -, -, hpending⟩ := h
  cases c
  cases hpending
  rfl

end PlayoutController

/-! ## Counters -/

theorem JitterBuffer.push_stats (jb : JitterBuffer) (seq : UInt16) (timestamp : UInt32)
    (payload : Bytes) : (jb.push seq timestamp payload).2.stats.concealed = jb.stats.concealed ∧
      (jb.push seq timestamp payload).2.stats.resets = jb.stats.resets := by
  have hstore : ∀ jb : JitterBuffer, (jb.store seq timestamp payload).2.stats.concealed =
      jb.stats.concealed ∧ (jb.store seq timestamp payload).2.stats.resets = jb.stats.resets := by
    intro jb
    rw [store]
    dsimp only
    split <;> exact ⟨rfl, rfl⟩
  rw [push]
  split_ifs
  · exact ⟨rfl, rfl⟩
  · exact ⟨rfl, rfl⟩
  · exact hstore _
  · exact hstore _
  · exact hstore _

/-- A push of another number does not bring a frame back, and evicts it from a slot they share. -/
theorem JitterBuffer.push_evicts {jb : JitterBuffer} {seq first : UInt16} (hne : seq ≠ first)
    (timestamp : UInt32) (payload : Bytes)
    (h : slotOf seq = slotOf first ∨ ¬ (jb.slots (slotOf first)).has first = true)
    (hstarted : jb.started = true) (hlate : ¬ newerThan jb.nextSeq seq = true)
    (hlen : payload.length ≤ maxFrameBytes) :
    ¬ ((jb.push seq timestamp payload).2.slots (slotOf first)).has first = true := by
  have hstore : ∀ jb' : JitterBuffer, jb'.slots = jb.slots →
      ¬ ((jb'.store seq timestamp payload).2.slots (slotOf first)).has first = true := by
    intro jb' hslots
    rw [store]
    dsimp only
    rw [hslots]
    by_cases hslot : slotOf seq = slotOf first
    · rw [hslot]
      split
      · rename_i hhas
        dsimp only
        rw [Slot.has_iff]
        exact fun hfirst => hne (((Slot.has_iff _ _).mp hhas).2.symm.trans hfirst.2)
      · dsimp only
        rw [Function.update_self, Slot.has_iff]
        exact fun hfirst => hne hfirst.2
    · have hold := h.resolve_left hslot
      split
      · exact hold
      · dsimp only
        rw [Function.update_of_ne (Ne.symm hslot)]
        exact hold
  rw [push, if_neg (Nat.not_lt.mpr hlen), if_neg (not_not.mpr hstarted), if_neg hlate]
  split
  · exact hstore _ rfl
  · exact hstore _ rfl

theorem JitterBuffer.push_started {jb : JitterBuffer} (h : jb.started = true) (seq : UInt16)
    (timestamp : UInt32) (payload : Bytes) : (jb.push seq timestamp payload).2.started = true ∧
      (jb.push seq timestamp payload).2.nextSeq = jb.nextSeq := by
  rw [push]
  split_ifs
  · exact ⟨h, rfl⟩
  · exact ⟨h, rfl⟩
  · rw [store_started, store_nextSeq]
    exact ⟨h, rfl⟩
  · rw [store_started, store_nextSeq]
    exact ⟨h, rfl⟩

theorem JitterBuffer.push_newestSeq {jb : JitterBuffer} {seq : UInt16}
    (h : jb.started = false ∨
      (¬ newerThan jb.nextSeq seq = true ∧ newerThan seq jb.newestSeq = true))
    (timestamp : UInt32) {payload : Bytes} (hlen : payload.length ≤ maxFrameBytes) :
    (jb.push seq timestamp payload).2.newestSeq = seq := by
  rw [push, if_neg (Nat.not_lt.mpr hlen)]
  by_cases hstarted : jb.started = true
  · obtain ⟨hlate, hnewer⟩ := h.resolve_left (by rw [hstarted]; exact Bool.true_eq_false_eq_False)
    rw [if_neg (not_not.mpr hstarted), if_neg hlate, if_pos hnewer, store_newestSeq]
  · rw [if_pos hstarted, store_newestSeq]

theorem lowSeq_add_natCast (s : UInt16) (k : Nat) : lowSeq (s.toNat + k) = s + UInt16.ofNat k := by
  have h1 := lowSeq_toNat (s.toNat + k)
  have h2 := UInt16.toNat_add s (UInt16.ofNat k)
  have h3 : (UInt16.ofNat k).toNat = k % 65536 := UInt16.toNat_ofNat'
  apply UInt16.toNat_inj.mp
  omega

theorem slotOf_add_ring (s : UInt16) : slotOf (s + UInt16.ofNat 64) = slotOf s := by
  have h1 := UInt16.toNat_add s (UInt16.ofNat 64)
  have h2 : (UInt16.ofNat 64).toNat = 64 := rfl
  have h3 := s.toNat_lt
  apply Fin.ext
  show (s + UInt16.ofNat 64).toNat % 64 = s.toNat % 64
  omega

/-- The greatest difference of two numbers bounds the depth. -/
theorem JitterBuffer.depth_le (jb : JitterBuffer) : jb.depth ≤ 32768 := by
  rw [depth]
  split
  · decide
  · rw [diff_eq_bmod, Int.bmod_def]
    omega

theorem JitterBuffer.popNext_concealed {jb : JitterBuffer} (hstarted : jb.started = true)
    (h : ¬ (jb.slots (slotOf jb.nextSeq)).has jb.nextSeq = true) :
    jb.popNext.1 = .missing ∧ jb.popNext.2.stats.concealed = jb.stats.concealed + 1 := by
  have htake : jb.take jb.nextSeq = (.missing, jb) := if_pos h
  rw [popNext, if_neg (not_not.mpr hstarted)]
  dsimp only
  rw [htake]
  exact ⟨rfl, rfl⟩

theorem JitterBuffer.popNext_hit {jb : JitterBuffer} {data : Bytes} {timestamp : UInt32}
    (h : jb.popNext.1 = .frame data timestamp) :
    jb.popNext.2.newestSeq = jb.newestSeq ∧ jb.popNext.2.stats.concealed = jb.stats.concealed ∧
      jb.popNext.2.stats.resets = jb.stats.resets := by
  have htake : (jb.take jb.nextSeq).2.stats = jb.stats := by
    rw [take]
    split_ifs <;> rfl
  refine ⟨jb.popNext_newestSeq, ?_⟩
  rw [popNext] at h ⊢
  by_cases hstarted : jb.started = true
  · rw [if_neg (not_not.mpr hstarted)] at h ⊢
    dsimp only at h ⊢
    generalize jb.take jb.nextSeq = r at h htake ⊢
    obtain ⟨outcome, jb'⟩ := r
    dsimp only at h htake ⊢
    rw [h, htake]
    exact ⟨rfl, rfl⟩
  · rw [if_pos hstarted] at h
    cases h

theorem JitterBuffer.skipNext_stats (jb : JitterBuffer) : jb.skipNext.2.stats = jb.stats := by
  rw [skipNext]
  split <;> rfl

namespace Playback

/-- After the pull nothing touches the counter of concealed frames. -/
theorem tickStepped_concealed (decode : σ → Option Bytes → Samples n → Bool × Samples n × σ)
    (p : Playback n σ) : (p.tickStepped decode).2.log.buffer.stats.concealed =
      (p.decodeNext decode).2.log.buffer.stats.concealed := by
  have hpull : (p.pullDecoded decode).2.log.buffer.stats.concealed =
      (p.decodeNext decode).2.log.buffer.stats.concealed := by
    rw [pullDecoded]
    dsimp only
    split_ifs <;> rfl
  have hadjust : ∀ (q : Playback n σ) (out : Samples n),
      (q.applyStepAdjustment out).log.buffer.stats = q.log.buffer.stats := by
    intro q out
    unfold applyStepAdjustment
    split
    · dsimp only
      split
      · rfl
      · exact q.log.buffer.skipNext_stats
      · rfl
    · rfl
  rw [← hpull, tickStepped]
  generalize p.pullDecoded decode = r
  obtain ⟨hit, q⟩ := r
  cases hit with
  | none => rfl
  | some hit => exact congrArg JitterStats.concealed (hadjust q _)

section Fixed

variable (decode : σ → Option Bytes → Samples n → Bool × Samples n × σ) (decoder : σ)
  (sampleRate depth : Nat) (s : UInt16) (frames : Nat → StreamFrame n)

/-- The playback of round `k`, before its tick. -/
abbrev fixedArrived (k : Nat) : Playback n σ :=
  arrived decode (fixed decoder sampleRate depth) s frames k

/-! ## Depths beyond the ring -/

/-- The playback after `k` rounds that have only filled the buffer. -/
structure Waits (p : Playback n σ) (k : Nat) : Prop where
  playout : p.playout = (fixed (n := n) decoder sampleRate depth).playout
  started : p.log.buffer.started = decide (0 < k)
  nextSeq : 0 < k → p.log.buffer.nextSeq = s
  concealed : p.log.buffer.stats.concealed = 0
  resets : p.log.buffer.stats.resets = 0
  ahead : 0 < k → k ≤ 32768 → p.log.buffer.ahead = k - 1
  evicted : 65 ≤ k → k ≤ 32768 → ¬ (p.log.buffer.slots (slotOf s)).has s = true

variable {decoder sampleRate depth s}

/-- The next frame of the stream arrives. -/
theorem Waits.arrive {p : Playback n σ} {k : Nat} (h : Waits decoder sampleRate depth s p k)
    (timestamp : UInt32) {payload : Bytes} (hlen : payload.length ≤ maxFrameBytes) (jitterUs : ℚ) :
    Waits decoder sampleRate depth s (p.arrive (s + UInt16.ofNat k) timestamp payload jitterUs) (k + 1) := by
  have hbuffer := p.arrive_buffer (s + UInt16.ofNat k) timestamp payload jitterUs
  obtain ⟨hconcealed, hresets⟩ :=
    p.log.buffer.push_stats (s + UInt16.ofNat k) timestamp payload
  rcases Nat.eq_zero_or_pos k with rfl | hpos
  · have hidle : p.log.buffer.started = false := h.started
    obtain ⟨h1, h2, h3⟩ := JitterBuffer.push_first hidle (s + UInt16.ofNat 0) timestamp hlen
    refine ⟨h.playout, ?_, fun _ => ?_, ?_, ?_, fun _ _ => ?_, fun hfull => absurd hfull (by decide)⟩
    all_goals rw [hbuffer]
    · exact h1
    · exact h2.trans (UInt16.add_zero s)
    · exact hconcealed.trans h.concealed
    · exact hresets.trans h.resets
    · exact h3
  · have hstarted : p.log.buffer.started = true := h.started.trans (decide_eq_true hpos)
    obtain ⟨h1, h2⟩ := JitterBuffer.push_started hstarted (s + UInt16.ofNat k) timestamp payload
    have hnext := h.nextSeq hpos
    have hdist : k ≤ 32767 → (s + UInt16.ofNat k - p.log.buffer.nextSeq).toNat = k := by
      intro hk
      rw [hnext, ahead_add, UInt16.sub_self]
      show (0 + k) % 65536 = k
      omega
    refine ⟨h.playout, ?_, fun _ => ?_, ?_, ?_, fun _ hk => ?_, fun hfull hk => ?_⟩
    all_goals rw [hbuffer]
    · exact h1
    · exact h2.trans hnext
    · exact hconcealed.trans h.concealed
    · exact hresets.trans h.resets
    · have hahead := h.ahead hpos (by omega)
      refine (JitterBuffer.push_ahead hstarted (by rw [hdist (by omega)]; omega) (by omega) timestamp
        hlen).trans ?_
      rw [hahead, hdist (by omega)]
      omega
    · have hk' := hdist (by omega)
      refine JitterBuffer.push_evicts (fun he => ?_) timestamp payload ?_ hstarted (fun hlate => ?_) hlen
      · rw [he, hnext, UInt16.sub_self] at hk'
        exact absurd hk' hpos.ne
      · by_cases hwrap : k = 64
        · exact Or.inl (by rw [hwrap, slotOf_add_ring])
        · exact Or.inr (h.evicted (by omega) (by omega))
      · rw [newerThan_iff_ahead] at hlate
        omega

/-- Before the depth is reached, and for a depth that never is, a tick is silent. -/
theorem Waits.not_goes {p : Playback n σ} {k : Nat} (h : Waits decoder sampleRate depth s p k)
    (hk : k < depth ∨ 32768 < depth) : ¬ p.Goes := by
  rintro (hprimed | ⟨hstarted, hle⟩)
  · rw [h.playout] at hprimed
    cases hprimed
  · have hmost := p.log.buffer.depth_le
    have hpos : 0 < k := of_decide_eq_true (h.started.symm.trans hstarted)
    rw [h.playout] at hle
    change (depth : Int) ≤ p.log.buffer.depth at hle
    by_cases hnear : k ≤ 32768
    · have hahead := h.ahead hpos hnear
      rw [JitterBuffer.depth_of_ahead hstarted (by omega)] at hle hmost
      omega
    · omega

variable (decoder sampleRate s) in
theorem Waits.resume {frames : Nat → StreamFrame n} (hframes : Playable decode frames) {k : Nat}
    (hk : k < depth ∨ 32768 < depth) : Waits decoder sampleRate depth s
      ((fixed decoder sampleRate depth).resume decode s frames k) k := by
  induction k with
  | zero => exact ⟨rfl, rfl, fun h => absurd h (by decide), rfl, rfl, fun h => absurd h (by decide),
      fun h => absurd h (by decide)⟩
  | succ k ih =>
    have hwaits : Waits decoder sampleRate depth s
        (fixedArrived decode decoder sampleRate depth s frames k) (k + 1) :=
      (ih (by omega)).arrive (frames k).timestamp (hframes k).1 (frames k).jitterUs
    rw [resume_waits decode (hwaits.not_goes hk)]
    exact hwaits

variable (decoder sampleRate s) in
/-- A stream that ends before the depth is reached is not heard at all. -/
theorem lossFree_of_short {frames : Nat → StreamFrame n} (hframes : Playable decode frames) {k : Nat}
    (hk : k + 1 < depth) : LossFree decode decoder sampleRate depth s frames k := by
  have hwaits : Waits decoder sampleRate depth s
      (fixedArrived decode decoder sampleRate depth s frames k) (k + 1) :=
    (Waits.resume decode decoder sampleRate s hframes (by omega)).arrive (frames k).timestamp
      (hframes k).1 (frames k).jitterUs
  have hnext := Waits.resume decode decoder sampleRate s hframes (k := k + 1) (Or.inl hk)
  refine ⟨?_, ?_, hnext.concealed, hnext.resets, ?_⟩
  · rw [if_pos hk]
    show ((fixedArrived decode decoder sampleRate depth s frames k).tick decode _).1 = _
    rw [tick_waits decode (hwaits.not_goes (Or.inl hk))]
  · rw [hnext.nextSeq (Nat.succ_pos k), show k + 2 - depth = 0 by omega]
    exact (UInt16.add_zero s).symm
  · rw [hnext.playout]
    rfl

/-- By the time the depth is reached, the first frame is gone. -/
theorem conceals_first {frames : Nat → StreamFrame n} (hframes : Playable decode frames) {k : Nat}
    (hring : 64 ≤ k) (hdepth : k + 1 ≤ 32768) :
    ((fixed decoder sampleRate (k + 1)).resume decode s frames (k + 1)).log.buffer.stats.concealed ≠ 0 := by
  have hwaits : Waits decoder sampleRate (k + 1) s
      (fixedArrived decode decoder sampleRate (k + 1) s frames k) (k + 1) :=
    (Waits.resume decode decoder sampleRate s hframes (Or.inl (Nat.lt_succ_self k))).arrive
      (frames k).timestamp (hframes k).1 (frames k).jitterUs
  rw [resume_succ]
  change Waits decoder sampleRate (k + 1) s
    (arrived decode (fixed decoder sampleRate (k + 1)) s frames k) (k + 1) at hwaits
  generalize arrived decode (fixed decoder sampleRate (k + 1)) s frames k = p at hwaits ⊢
  have hstarted : p.log.buffer.started = true := hwaits.started
  have hahead := hwaits.ahead (Nat.succ_pos k) hdepth
  have hgo : p.Goes := by
    refine Or.inr ⟨hstarted, ?_⟩
    rw [hwaits.playout, JitterBuffer.depth_of_ahead hstarted (by omega), hahead]
    exact le_rfl
  have hdrift : p.playout.driftEnabled = false := by
    rw [hwaits.playout]
    rfl
  have hprimed : p.primed = { p with playout := { p.playout with
      controller := { p.playout.controller with primed := true, consecutiveMisses := 0 } } } := by
    rw [primed, if_neg (by rw [hwaits.playout]; exact Bool.false_ne_true)]
  rw [tick_goes decode hgo, hdrift, if_neg Bool.false_ne_true, tickStepped_concealed, hprimed]
  have hmiss : ¬ (p.log.buffer.slots (slotOf p.log.buffer.nextSeq)).has p.log.buffer.nextSeq = true := by
    rw [hwaits.nextSeq (Nat.succ_pos k)]
    exact hwaits.evicted (by omega) hdepth
  obtain ⟨hpop, hcount⟩ := JitterBuffer.popNext_concealed hstarted hmiss
  have hlog : ∀ playout : StreamPlayout n σ, playout.insertPending = false →
      (decodeNext decode { p with playout := playout }).2.log = p.log.pop := by
    intro playout hinsert
    rw [decodeNext, if_neg (by rw [hinsert]; exact Bool.false_ne_true), popDecoded, hpop]
  rw [hlog _ (by rw [hwaits.playout]; rfl), BufferLog.pop_buffer, hcount]
  exact Nat.succ_ne_zero _

/-! ## Depths the ring has room for -/

variable (decoder depth s) in
/-- The playback when `pushed` frames have arrived and the first `popped` of them have been played. -/
structure Holding (frames : Nat → StreamFrame n) (p : Playback n σ) (pushed popped : Nat)
    (h : List JitterOp) : Prop where
  window : InWindow h
  agrees : Agrees p.log.buffer h
  position : readPos h = if pushed = 0 then none else some ((s.toNat : Int) + popped)
  carried : ∀ j : Nat, firstFrame h (s.toNat + j) =
    if j < pushed then some ⟨(frames j).timestamp, (frames j).payload⟩ else none
  newest : 0 < pushed → p.log.buffer.newestSeq = lowSeq (s.toNat + (pushed - 1 : Nat))
  concealed : p.log.buffer.stats.concealed = 0
  resets : p.log.buffer.stats.resets = 0
  controller : p.playout.controller.Fixed depth
  insertPending : p.playout.insertPending = false
  driftEnabled : p.playout.driftEnabled = false
  decoded : (p.playout.decodeBuf, p.playout.decoder) = decoded decode decoder frames popped

variable {frames : Nat → StreamFrame n}

theorem Holding.new : Holding decode decoder depth s frames (fixed decoder sampleRate depth) 0 0 [] where
  window := InWindow.nil
  agrees := Agrees.new
  position := rfl
  carried := fun _ => rfl
  newest := fun h => absurd h (Nat.lt_irrefl 0)
  concealed := rfl
  resets := rfl
  controller := ⟨rfl, rfl, rfl, rfl, rfl⟩
  insertPending := rfl
  driftEnabled := rfl
  decoded := rfl

theorem Holding.arrive {p : Playback n σ} {pushed popped : Nat} {h : List JitterOp}
    (hp : Holding decode decoder depth s frames p pushed popped h)
    (hlen : (frames pushed).payload.length ≤ maxFrameBytes) (hle : popped ≤ pushed)
    (hroom : pushed < popped + 64) :
    Holding decode decoder depth s frames
      (p.arrive (s + UInt16.ofNat pushed) (frames pushed).timestamp (frames pushed).payload
        (frames pushed).jitterUs) (pushed + 1) popped
      (h ++ [.push (s.toNat + pushed) ⟨(frames pushed).timestamp, (frames pushed).payload⟩]) := by
  have hbuffer := p.arrive_buffer (s + UInt16.ofNat pushed) (frames pushed).timestamp
    (frames pushed).payload (frames pushed).jitterUs
  have hwindow : InWindow
      (h ++ [.push (s.toNat + pushed) ⟨(frames pushed).timestamp, (frames pushed).payload⟩]) := by
    refine hp.window.append_push hlen fun next hnext => ?_
    rw [hp.position] at hnext
    split at hnext
    · cases hnext
    · obtain rfl := Option.some.inj hnext
      omega
  have hpush := hp.agrees.push hwindow
  rw [lowSeq_add_natCast] at hpush
  obtain ⟨hconcealed, hresets⟩ := p.log.buffer.push_stats (s + UInt16.ofNat pushed)
    (frames pushed).timestamp (frames pushed).payload
  refine ⟨hwindow, ?_, ?_, fun j => ?_, fun _ => ?_, ?_, ?_, hp.controller, hp.insertPending,
    hp.driftEnabled, hp.decoded⟩
  · rw [hbuffer]
    exact hpush.2
  · rw [readPos_append_push, hp.position, if_neg (Nat.succ_ne_zero _)]
    by_cases hzero : pushed = 0
    · obtain rfl : popped = 0 := by omega
      rw [if_pos hzero, hzero]
      rfl
    · rw [if_neg hzero]
      rfl
  · rw [firstFrame_append_push, hp.carried]
    by_cases hold : j < pushed
    · rw [if_pos hold, if_pos (Nat.lt_succ_of_lt hold), Option.some_or]
    · rw [if_neg hold, Option.none_or]
      by_cases hnew : j = pushed
      · rw [hnew, if_pos rfl, if_pos (Nat.lt_succ_self pushed)]
      · rw [if_neg (by omega), if_neg (by omega)]
  · rw [hbuffer, Nat.add_sub_cancel, lowSeq_add_natCast]
    refine JitterBuffer.push_newestSeq ?_ (frames pushed).timestamp hlen
    by_cases hzero : pushed = 0
    · have hnone : readPos h = none := by rw [hp.position, if_pos hzero]
      exact Or.inl (hp.agrees.of_none hnone).1
    · have hsome : readPos h = some ((s.toNat : Int) + popped) := by rw [hp.position, if_neg hzero]
      rw [(hp.agrees.of_some hsome).2.1, hp.newest (Nat.pos_of_ne_zero hzero), ← lowSeq_add_natCast,
        newerThan_lowSeq (by omega) (by omega), newerThan_lowSeq (by omega) (by omega)]
      omega
  · rw [hbuffer]
    exact hconcealed.trans hp.concealed
  · rw [hbuffer]
    exact hresets.trans hp.resets

/-- The buffer reports what has arrived and not been played. -/
theorem Holding.depth_eq {p : Playback n σ} {pushed popped : Nat} {h : List JitterOp}
    (hp : Holding decode decoder depth s frames p pushed popped h) (hpos : 0 < pushed)
    (hle : popped ≤ pushed) (hroom : pushed ≤ popped + 64) :
    p.log.buffer.started = true ∧ p.log.buffer.nextSeq = s + UInt16.ofNat popped ∧
    p.log.buffer.depth = pushed - popped := by
  have hsome : readPos h = some ((s.toNat : Int) + popped) := by rw [hp.position, if_neg hpos.ne']
  obtain ⟨hstarted, hnext, -⟩ := hp.agrees.of_some hsome
  refine ⟨hstarted, hnext.trans (lowSeq_add_natCast s popped), ?_⟩
  rw [JitterBuffer.depth, if_neg (not_not.mpr hstarted), hnext, hp.newest hpos,
    diff_lowSeq (by omega) (by omega)]
  omega

/-- The next frame is there and gets decoded. -/
theorem Holding.decodeNext {p : Playback n σ} {pushed popped : Nat} {h : List JitterOp}
    (hp : Holding decode decoder depth s frames p pushed popped h)
    (hdecode : Decodable decode (frames popped).payload) (hlt : popped < pushed) :
    (p.decodeNext decode).1 = true ∧
    (p.decodeNext decode).2.playout.controller = p.playout.controller ∧
    Holding decode decoder depth s frames (p.decodeNext decode).2 pushed (popped + 1) (h ++ [.pop]) := by
  have hzero : ¬ pushed = 0 := by omega
  have hsome : readPos h = some ((s.toNat : Int) + popped) := by rw [hp.position, if_neg hzero]
  obtain ⟨hpop, hagrees⟩ := hp.agrees.pop hp.window
  rw [specPop, hsome, Option.bind_some, hp.carried, if_pos hlt] at hpop
  dsimp only at hpop
  obtain ⟨hnewest, hconcealed, hresets⟩ := JitterBuffer.popNext_hit hpop
  have hok := hdecode p.playout.decoder p.playout.decodeBuf
  have hnext : p.decodeNext decode = (true,
      { playout := { p.playout with
          decoder := (decode p.playout.decoder (some (frames popped).payload) p.playout.decodeBuf).2.2
          decodeBuf := (decode p.playout.decoder (some (frames popped).payload) p.playout.decodeBuf).2.1 }
        log := p.log.pop
        played := p.played ++ (p.log.latest p.log.buffer.nextSeq).toList.map Prod.fst }) := by
    rw [Playback.decodeNext, if_neg (by rw [hp.insertPending]; exact Bool.false_ne_true), popDecoded, hpop]
    exact if_pos hok
  rw [hnext]
  refine ⟨rfl, rfl, hp.window.append_read rfl, ?_, ?_, fun j => ?_, fun hpos => ?_, ?_, ?_, hp.controller,
    hp.insertPending, hp.driftEnabled, ?_⟩
  · rw [BufferLog.pop_buffer]
    exact hagrees
  · rw [readPos_append_read h .pop rfl, hsome, if_neg hzero, Option.map_some]
    congr 1
  · rw [firstFrame_append_read h _ rfl]
    exact hp.carried j
  · rw [BufferLog.pop_buffer]
    exact hnewest.trans (hp.newest hpos)
  · rw [BufferLog.pop_buffer]
    exact hconcealed.trans hp.concealed
  · rw [BufferLog.pop_buffer]
    exact hresets.trans hp.resets
  · rw [Playback.decoded, ← hp.decoded]

/-- The depth after a pull is within the deadband. -/
theorem Holding.pullDecoded {p : Playback n σ} {pushed popped : Nat} {h : List JitterOp}
    (hp : Holding decode decoder depth s frames p pushed popped h)
    (hdecode : Decodable decode (frames popped).payload) (hpos : 0 < depth) (hring : depth ≤ 64)
    (hdepth : pushed = popped + depth) :
    (p.pullDecoded decode).1 = some true ∧
    (p.pullDecoded decode).2.playout.controller.primed = p.playout.controller.primed ∧
    Holding decode decoder depth s frames (p.pullDecoded decode).2 pushed (popped + 1) (h ++ [.pop]) := by
  obtain ⟨hhit, hcontroller, hq⟩ := hp.decodeNext decode hdecode (by omega)
  rw [Playback.pullDecoded]
  generalize p.decodeNext decode = r at hhit hcontroller hq ⊢
  obtain ⟨hit, q⟩ := r
  dsimp only at hhit hcontroller hq ⊢
  subst hhit
  obtain ⟨hkeep, hfixed, hprimed⟩ := hq.controller.hit q.log.buffer.stats.jitterUs
  obtain ⟨-, -, hseen⟩ := hq.depth_eq decode (by omega) (by omega) (by omega)
  rw [if_neg (by rw [hkeep]; exact Bool.false_ne_true),
    hfixed.observeDepth (by rw [hseen]; omega) (by rw [hseen]; omega)]
  exact ⟨rfl, hprimed.trans (by rw [hcontroller]), hq.window, hq.agrees, hq.position, hq.carried, hq.newest,
    hq.concealed, hq.resets, hfixed, hq.insertPending, hq.driftEnabled, hq.decoded⟩

/-- A tick plays the next frame and corrects nothing. -/
theorem Holding.tickStepped {p : Playback n σ} {pushed popped : Nat} {h : List JitterOp}
    (hp : Holding decode decoder depth s frames p pushed popped h)
    (hdecode : Decodable decode (frames popped).payload) (hpos : 0 < depth) (hring : depth ≤ 64)
    (hdepth : pushed = popped + depth) :
    (p.tickStepped decode).1 = (true, (Playback.decoded decode decoder frames (popped + 1)).1) ∧
    (p.tickStepped decode).2.playout.controller.primed = p.playout.controller.primed ∧
    Holding decode decoder depth s frames (p.tickStepped decode).2 pushed (popped + 1) (h ++ [.pop]) := by
  obtain ⟨hhit, hprimed, hq⟩ := hp.pullDecoded decode hdecode hpos hring hdepth
  rw [Playback.tickStepped]
  generalize p.pullDecoded decode = r at hhit hprimed hq ⊢
  obtain ⟨hit, q⟩ := r
  dsimp only at hhit hprimed hq ⊢
  subst hhit
  have hadjust : q.applyStepAdjustment q.playout.decodeBuf = q := by
    rw [applyStepAdjustment, hq.controller.takeAdjustment]
    split <;> rfl
  dsimp only
  rw [hadjust, ← hq.decoded]
  exact ⟨rfl, hprimed, hq⟩

/-- The tick of round `k`: it waits for the depth, or plays. -/
theorem Holding.tick {p : Playback n σ} {k : Nat} {h : List JitterOp} (hframes : Playable decode frames)
    (hpos : 0 < depth) (hring : depth ≤ 64) (out : Samples n)
    (hp : Holding decode decoder depth s frames p (k + 1) (k + 1 - depth) h)
    (hprimed : p.playout.controller.primed = decide (depth ≤ k)) :
    (p.tick decode out).1 = (if k + 1 < depth then (false, fun _ => 0)
      else (true, (Playback.decoded decode decoder frames (k + 2 - depth)).1)) ∧
    (p.tick decode out).2.playout.controller.primed = decide (depth ≤ k + 1) ∧
    ∃ h', Holding decode decoder depth s frames (p.tick decode out).2 (k + 1) (k + 2 - depth) h' := by
  obtain ⟨hstarted, -, hseen⟩ := hp.depth_eq decode (Nat.succ_pos k) (by omega) (by omega)
  have htarget := hp.controller.target
  by_cases hwait : k + 1 < depth
  · have hno : ¬ p.Goes := by
      rintro (hgo | ⟨-, hgo⟩)
      · rw [hprimed, decide_eq_true_eq] at hgo
        omega
      · rw [htarget, hseen] at hgo
        omega
    rw [tick_waits decode hno, if_pos hwait, hprimed]
    refine ⟨rfl, decide_eq_decide.mpr (by omega), h, ?_⟩
    rw [show k + 2 - depth = k + 1 - depth by omega]
    exact hp
  · have hgo : p.Goes := Or.inr ⟨hstarted, by rw [htarget, hseen]; omega⟩
    have hfixed := hp.controller
    have hp' : Holding decode decoder depth s frames p.primed (k + 1) (k + 1 - depth) h ∧
        p.primed.playout.controller.primed = true := by
      rw [primed]
      split
      · exact ⟨hp, ‹_›⟩
      · exact ⟨⟨hp.window, hp.agrees, hp.position, hp.carried, hp.newest, hp.concealed, hp.resets,
          ⟨hfixed.minFrames, hfixed.maxFrames, hfixed.target, hfixed.deadband, hfixed.pending⟩,
          hp.insertPending, hp.driftEnabled, hp.decoded⟩, rfl⟩
    obtain ⟨h1, h2, h3⟩ := hp'.1.tickStepped decode (hframes _).2 hpos hring (by omega)
    rw [tick_goes decode hgo, hp.driftEnabled, if_neg Bool.false_ne_true, if_neg hwait, h1, h2, hp'.2,
      show k + 2 - depth = k + 1 - depth + 1 by omega]
    exact ⟨rfl, (decide_eq_true (by omega)).symm, _, h3⟩

variable (decoder sampleRate s) in
/-- The run lemma. -/
theorem Holding.resume (hframes : Playable decode frames) (hpos : 0 < depth) (hring : depth ≤ 64)
    (k : Nat) :
    ((fixed decoder sampleRate depth).resume decode s frames k).playout.controller.primed =
      decide (depth ≤ k) ∧
    ∃ h, Holding decode decoder depth s frames
      ((fixed decoder sampleRate depth).resume decode s frames k) k (k + 1 - depth) h := by
  induction k with
  | zero =>
    rw [show 0 + 1 - depth = 0 by omega]
    exact ⟨(decide_eq_false (by omega)).symm, [], Holding.new decode⟩
  | succ k ih =>
    obtain ⟨hprimed, h, hp⟩ := ih
    have harrived := hp.arrive decode (hframes k).1 (by omega) (by omega)
    exact (harrived.tick decode hframes hpos hring (frames k).out hprimed).2

/-- A depth within the ring plays every frame of a perfect stream. -/
theorem lossFree_of_fits (hframes : Playable decode frames) (hpos : 0 < depth) (hring : depth ≤ 64)
    (k : Nat) : LossFree decode decoder sampleRate depth s frames k := by
  obtain ⟨hprimed, h, hp⟩ := Holding.resume decode decoder sampleRate s hframes hpos hring k
  have harrived := hp.arrive decode (hframes k).1 (by omega) (by omega)
  obtain ⟨hheard, -, h', hnext⟩ := harrived.tick decode hframes hpos hring (frames k).out hprimed
  exact ⟨hheard, (hnext.depth_eq decode (Nat.succ_pos k) (by omega) (by omega)).2.1, hnext.concealed,
    hnext.resets, hnext.insertPending⟩

variable (decoder sampleRate s) in
/-- A depth beyond the ring fails in the very round that reaches it. -/
theorem not_lossFree (hframes : Playable decode frames) {k : Nat} (hring : 64 ≤ k) :
    ¬ LossFree decode decoder sampleRate (k + 1) s frames k := by
  intro h
  by_cases hdepth : k + 1 ≤ 32768
  · exact conceals_first decode hframes hring hdepth h.concealed
  · have hwaits : Waits decoder sampleRate (k + 1) s
        (fixedArrived decode decoder sampleRate (k + 1) s frames k) (k + 1) :=
      (Waits.resume decode decoder sampleRate s hframes (Or.inl (Nat.lt_succ_self k))).arrive
        (frames k).timestamp (hframes k).1 (frames k).jitterUs
    have hheard := h.heard
    rw [if_neg (Nat.lt_irrefl _)] at hheard
    change ((fixedArrived decode decoder sampleRate (k + 1) s frames k).tick decode _).1 = _ at hheard
    rw [tick_waits decode (hwaits.not_goes (Or.inr (by omega)))] at hheard
    cases congrArg Prod.fst hheard

end Fixed

/-! ## Main result -/

/-- A fixed depth plays a perfect stream without loss exactly when the ring has room for it, or the stream
is shorter than the depth. -/
theorem fixed_lossFree_iff (decode : σ → Option Bytes → Samples n → Bool × Samples n × σ) (decoder : σ)
    (sampleRate : Nat) (s : UInt16) {frames : Nat → StreamFrame n} (hframes : Playable decode frames)
    {depth : Nat} (hdepth : 1 ≤ depth) (length : Nat) :
    (∀ k < length, LossFree decode decoder sampleRate depth s frames k) ↔
      depth ≤ ringSlots ∨ length < depth := by
  change _ ↔ depth ≤ 64 ∨ length < depth
  constructor
  · intro h
    by_contra hlong
    obtain ⟨k, rfl⟩ := Nat.exists_eq_add_of_lt hdepth
    rw [Nat.zero_add] at h hlong
    exact not_lossFree decode decoder sampleRate s hframes (by omega) (h k (by omega))
  · intro h k hk
    by_cases hring : depth ≤ 64
    · exact lossFree_of_fits decode hframes hdepth hring k
    · exact lossFree_of_short decode decoder sampleRate s hframes (by omega)

/-- The last of five seconds of silence across the wrap, with two frames of depth. -/
theorem fixed_lossFree_two : LossFree decodePcmS16 () 48000 2 65000 silence 1999 :=
  (fixed_lossFree_iff decodePcmS16 () 48000 65000 playable_silence (by decide) 2000).mpr
    (Or.inl (by decide)) 1999 (by decide)

/-- The ring is too small for a depth of 65 frames. -/
theorem fixed_overwrites_first : ¬ ∀ k < 65, LossFree decodePcmS16 () 48000 65 0 silence k := fun h =>
  not_lossFree decodePcmS16 () 48000 0 playable_silence le_rfl (h 64 (by decide))

end Playback

end OnlineJam
