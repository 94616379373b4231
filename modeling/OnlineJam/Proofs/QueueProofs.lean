import OnlineJam.Core.JamSpec
import OnlineJam.Proofs.FixedProofs
import OnlineJam.Proofs.UpstreamProofs

/-!
# Proofs: the jitter buffer as a queue

While frames arrive in a row and none too early, the buffer is a queue: a push puts its frame at the end,
a pop takes the first one, and the redundant copies change nothing.
-/

namespace OnlineJam

/-- A push of a number that is not newer leaves the newest one. -/
theorem JitterBuffer.push_newestSeq_of_old {jb : JitterBuffer} {seq : UInt16} (hs : jb.started = true)
    (h : ¬ newerThan seq jb.newestSeq = true) (timestamp : UInt32) (payload : Bytes) :
    (jb.push seq timestamp payload).2.newestSeq = jb.newestSeq := by
  rw [push, if_neg (not_not.mpr hs), if_neg h]
  split_ifs
  · rfl
  · rfl
  · rw [store_newestSeq]

/-- The buffer holds these frames in a row from position `next` on, and nothing else. -/
structure Queued (jb : JitterBuffer) (next : Int) (frames : List Frame) : Prop where
  history : ∃ h, InWindow h ∧ Agrees jb h ∧ (readPos h = none ∧ frames = [] ∨ readPos h = some next) ∧
    ∀ i : Nat, firstFrame h (next + i) = frames[i]?
  newest : jb.started = true → jb.newestSeq = lowSeq (next + frames.length - 1)

namespace Queued

variable {jb : JitterBuffer} {next : Int} {frames : List Frame}

theorem new (next : Int) : Queued JitterBuffer.new next [] where
  history := ⟨[], InWindow.nil, Agrees.new, Or.inl ⟨rfl, rfl⟩, fun _ => rfl⟩
  newest := fun h => by cases h

theorem publishJitterUs (h : Queued jb next frames) (jitterUs : ℚ) :
    Queued (jb.publishJitterUs jitterUs) next frames := ⟨h.history, h.newest⟩

/-- A buffer that holds something has started. -/
theorem started (h : Queued jb next frames) (hne : frames ≠ []) : jb.started = true := by
  obtain ⟨hist, -, ha, hpos, -⟩ := h.history
  rcases hpos with ⟨-, hnil⟩ | hpos
  · exact absurd hnil hne
  · exact (ha.of_some hpos).1

theorem depth (h : Queued jb next frames) (hroom : frames.length ≤ 64) : jb.depth = frames.length := by
  obtain ⟨hist, -, ha, hpos, -⟩ := h.history
  rw [JitterBuffer.depth]
  rcases hpos with ⟨hnone, rfl⟩ | hpos
  · obtain ⟨hs, -⟩ := ha.of_none hnone
    rw [if_pos (by rw [hs]; exact Bool.false_ne_true)]
    rfl
  · obtain ⟨hs, hn, -⟩ := ha.of_some hpos
    rw [if_neg (not_not.mpr hs), hn, h.newest hs, diff_lowSeq (by omega) (by omega)]
    omega

/-! ## Pushes -/

theorem push (h : Queued jb next frames) (hroom : frames.length < 64) {f : Frame}
    (hlen : f.payload.length ≤ maxFrameBytes) :
    Queued (jb.push (lowSeq (next + frames.length)) f.timestamp f.payload).2 next (frames ++ [f]) := by
  obtain ⟨hist, hw, ha, hpos, hcarried⟩ := h.history
  have hw' : InWindow (hist ++ [.push (next + frames.length) f]) := by
    refine hw.append_push hlen fun read hread => ?_
    rcases hpos with ⟨hnone, -⟩ | hpos
    · rw [hnone] at hread
      cases hread
    · obtain rfl := Option.some.inj (hpos.symm.trans hread)
      omega
  constructor
  · refine ⟨_, hw', (ha.push hw').2, Or.inr ?_, fun i => ?_⟩
    · rw [readPos_append_push]
      rcases hpos with ⟨hnone, rfl⟩ | hpos
      · rw [hnone, Option.getD_none, List.length_nil, Int.natCast_zero, Int.add_zero]
      · rw [hpos, Option.getD_some]
    · rw [firstFrame_append_push, hcarried]
      by_cases hi : i < frames.length
      · rw [List.getElem?_append_left hi, List.getElem?_eq_getElem hi, Option.some_or]
      · rw [List.getElem?_append_right (by omega), List.getElem?_eq_none (by omega), Option.none_or]
        by_cases heq : i = frames.length
        · rw [heq, if_pos rfl, Nat.sub_self]
          rfl
        · rw [if_neg (by omega), List.getElem?_eq_none (by rw [List.length_singleton]; omega)]
  · intro _
    rw [List.length_append, List.length_singleton, Nat.cast_add, Nat.cast_one, ← Int.add_assoc,
      Int.add_sub_cancel]
    refine JitterBuffer.push_newestSeq ?_ f.timestamp hlen
    rcases hpos with ⟨hnone, -⟩ | hpos
    · exact Or.inl (ha.of_none hnone).1
    · obtain ⟨hs, hn, -⟩ := ha.of_some hpos
      refine Or.inr ⟨?_, ?_⟩
      · rw [hn, newerThan_lowSeq (by omega) (by omega)]
        omega
      · rw [h.newest hs, newerThan_lowSeq (by omega) (by omega)]
        omega

/-- A copy of a frame that waits, or of the last one played, is not stored again. -/
theorem push_copy (h : Queued jb next frames) (hstarted : jb.started = true) (hroom : frames.length ≤ 64)
    {p : Int} (hlo : next - 1 ≤ p) (hhi : p < next + frames.length) {f : Frame}
    (hlen : f.payload.length ≤ maxFrameBytes) :
    Queued (jb.push (lowSeq p) f.timestamp f.payload).2 next frames := by
  obtain ⟨hist, hw, ha, hpos, hcarried⟩ := h.history
  have hread : readPos hist = some next := by
    rcases hpos with ⟨hnone, -⟩ | hpos
    · rw [(ha.of_none hnone).1] at hstarted
      cases hstarted
    · exact hpos
  have hw' : InWindow (hist ++ [.push p f]) := by
    refine hw.append_push hlen fun read he => ?_
    obtain rfl := Option.some.inj (hread.symm.trans he)
    omega
  constructor
  · refine ⟨_, hw', (ha.push hw').2, Or.inr ?_, fun i => ?_⟩
    · rw [readPos_append_push, hread, Option.getD_some]
    · rw [firstFrame_append_push, hcarried]
      by_cases hi : i < frames.length
      · rw [List.getElem?_eq_getElem hi, Option.some_or]
      · rw [List.getElem?_eq_none (by omega), Option.none_or, if_neg (by omega)]
  · intro _
    have hnewest := h.newest hstarted
    refine (JitterBuffer.push_newestSeq_of_old hstarted ?_ f.timestamp f.payload).trans hnewest
    rw [hnewest, newerThan_lowSeq (by omega) (by omega)]
    omega

/-- An audio packet for the next position adds its frame. -/
theorem receiveAudio {stream : StreamShared} (h : Queued stream.jb next frames)
    (hroom : frames.length < 64) (cfg : RxConfig) (nowUs : Nat) (jitter : ArrivalJitter) {header : Header}
    (hseq : header.seq = lowSeq (next + frames.length)) {audio : AudioPacket}
    (hlen : audio.payload.length ≤ maxFrameBytes)
    (hred : ∀ red, audio.redundant = some red → red.length ≤ maxFrameBytes) :
    Queued (receiveAudio cfg nowUs jitter stream header audio).2.jb next
      (frames ++ [⟨audio.timestamp, audio.payload⟩]) := by
  have hpush := (h.publishJitterUs (jitter.onArrival nowUs (mediaUs cfg audio.timestamp)).1).push hroom
    (f := ⟨audio.timestamp, audio.payload⟩) hlen
  rw [OnlineJam.receiveAudio, hseq]
  cases hcopy : audio.redundant with
  | none => exact hpush
  | some red =>
    have hstarted := hpush.started (List.append_ne_nil_of_right_ne_nil _ (List.cons_ne_nil _ _))
    have hlength : (frames ++ [(⟨audio.timestamp, audio.payload⟩ : Frame)]).length = frames.length + 1 :=
      List.length_append
    rw [← lowSeq_sub_one]
    exact hpush.push_copy hstarted (by omega) (by omega) (by omega)
      (f := ⟨audio.timestamp - UInt32.ofNat cfg.frameSamples, red⟩) (hred red hcopy)

/-! ## Pops -/

theorem pop {f : Frame} (h : Queued jb next (f :: frames)) :
    jb.popNext.1 = .frame f.payload f.timestamp ∧ Queued jb.popNext.2 (next + 1) frames := by
  obtain ⟨hist, hw, ha, hpos, hcarried⟩ := h.history
  have hread : readPos hist = some next := by
    rcases hpos with ⟨-, hnil⟩ | hpos
    · cases hnil
    · exact hpos
  have hfirst : firstFrame hist next = some f := by
    have hzero := hcarried 0
    rw [Int.natCast_zero, Int.add_zero] at hzero
    exact hzero
  obtain ⟨hout, ha'⟩ := ha.pop hw
  rw [specPop, hread, Option.bind_some, hfirst] at hout
  refine ⟨hout, ⟨_, hw.append_read rfl, ha', Or.inr ?_, fun i => ?_⟩, fun _ => ?_⟩
  · rw [readPos_append_read hist .pop rfl, hread, Option.map_some]
  · have hsucc := hcarried (i + 1)
    rw [List.getElem?_cons_succ] at hsucc
    rw [firstFrame_append_read hist _ rfl, ← hsucc]
    congr 1
    omega
  · rw [jb.popNext_newestSeq, h.newest (ha.of_some hread).1, List.length_cons]
    congr 1
    omega

end Queued

end OnlineJam
