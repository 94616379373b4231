import OnlineJam.Audio.BufferLog
import Mathlib.Data.List.FinRange
import Mathlib.Data.List.Induction

/-!
# Proofs: the counters of the jitter buffer add up

Every push has one outcome, every read of a stream that has begun plays or conceals, and every frame that
was stored went one way or is still there.
-/

namespace OnlineJam

/-! ## Slots -/

theorem sum_update {f : Fin ringSlots → Slot} (k : Fin ringSlots) (s : Slot) (w : Slot → Nat)
    {is : List (Fin ringSlots)} (his : is.Nodup) :
    (is.map fun i => w (Function.update f k s i)).sum + (if k ∈ is then w (f k) else 0) =
      (is.map fun i => w (f i)).sum + if k ∈ is then w s else 0 := by
  induction is with
  | nil => rfl
  | cons i is ih =>
    obtain ⟨hi, his⟩ := List.nodup_cons.mp his
    have hrest := ih his
    rw [List.map_cons, List.map_cons, List.sum_cons, List.sum_cons]
    by_cases hk : k = i
    · subst hk
      rw [if_neg hi, if_neg hi] at hrest
      rw [if_pos List.mem_cons_self, if_pos List.mem_cons_self, Function.update_self]
      omega
    · have hmem : k ∈ i :: is ↔ k ∈ is := List.mem_cons.trans (or_iff_right hk)
      rw [Function.update_of_ne (Ne.symm hk)]
      simp only [hmem]
      omega

/-- One slot is changed. -/
theorem writtenSlots_update (slots : Fin ringSlots → Slot) (k : Fin ringSlots) (s : Slot) :
    writtenSlots (Function.update slots k s) + (if (slots k).state = .written then 1 else 0) =
      writtenSlots slots + if s.state = .written then 1 else 0 := by
  have h := sum_update (f := slots) k s (fun s => if s.state = .written then 1 else 0)
    (List.nodup_finRange ringSlots)
  rw [if_pos (List.mem_finRange k), if_pos (List.mem_finRange k)] at h
  exact h

/-- A frame is taken out of its slot. -/
theorem writtenSlots_take {slots : Fin ringSlots → Slot} {k : Fin ringSlots}
    (h : (slots k).state = .written) :
    writtenSlots (Function.update slots k { slots k with state := .empty }) + 1 = writtenSlots slots := by
  have hupdate := writtenSlots_update slots k { slots k with state := .empty }
  rw [if_pos h] at hupdate
  exact hupdate.trans (Nat.add_zero _)

theorem Slot.written_of_has {s : Slot} {seq : UInt16} (h : s.has seq = true) : s.state = .written := by
  rw [Slot.has, Bool.and_eq_true] at h
  exact eq_of_beq h.1

namespace BufferLedger

/-! ## The balance -/

structure Balanced (l : BufferLedger) : Prop where
  pushes : l.pushed = l.buffer.stats.received + l.buffer.stats.late + l.buffer.stats.duplicates + l.tooBig
  reads : l.popped = l.buffer.stats.played + l.buffer.stats.concealed
  frames : l.buffer.stats.received =
    l.buffer.stats.played + l.skipped + l.overwritten + l.discarded + l.buffer.waiting

theorem balanced_new : Balanced new where
  pushes := rfl
  reads := rfl
  frames := by decide

/-- The second half of a push stores the frame or finds it there. -/
theorem store_counts (jb : JitterBuffer) (seq : UInt16) (timestamp : UInt32) (payload : Bytes) :
    let r := jb.store seq timestamp payload
    (r.1 = .stored ∧ r.2.stats = { jb.stats with received := jb.stats.received + 1 } ∧
      r.2.waiting + (if (jb.slots (slotOf seq)).state = .written then 1 else 0) = jb.waiting + 1) ∨
    (r.1 = .duplicate ∧ r.2.stats = { jb.stats with duplicates := jb.stats.duplicates + 1 } ∧
      r.2.waiting = jb.waiting) := by
  rw [JitterBuffer.store]
  dsimp only
  split
  · exact .inr ⟨rfl, rfl, rfl⟩
  · exact .inl ⟨rfl, rfl, writtenSlots_update jb.slots (slotOf seq) _⟩

theorem Balanced.push {l : BufferLedger} (h : Balanced l) (seq : UInt16) (timestamp : UInt32)
    (payload : Bytes) : Balanced (l.step (.push seq timestamp payload)) := by
  have hpushes := h.pushes
  have hframes := h.frames
  -- The cursors do not count.
  have stores : ∀ jb : JitterBuffer, jb.slots = l.buffer.slots → jb.stats = l.buffer.stats →
      l.buffer.push seq timestamp payload = jb.store seq timestamp payload →
        Balanced (l.step (.push seq timestamp payload)) := by
    intro jb hslots hstats hpush
    have hwaiting : jb.waiting = l.buffer.waiting := congrArg writtenSlots hslots
    have hcounts := store_counts jb seq timestamp payload
    dsimp only at hcounts
    rw [hslots, hstats, hwaiting, ← hpush] at hcounts
    rw [step]
    dsimp only
    generalize l.buffer.push seq timestamp payload = r at hcounts ⊢
    obtain ⟨outcome, buffer⟩ := r
    dsimp only at hcounts ⊢
    rcases hcounts with ⟨rfl, hstats, hwaits⟩ | ⟨rfl, hstats, hwaits⟩
    · refine ⟨?_, ?_, ?_⟩
      · dsimp only
        rw [hstats, if_neg PushOutcome.noConfusion]
        dsimp only
        omega
      · dsimp only
        rw [hstats]
        exact h.reads
      · dsimp only
        rw [hstats]
        simp only [true_and]
        omega
    · refine ⟨?_, ?_, ?_⟩
      · dsimp only
        rw [hstats, if_neg PushOutcome.noConfusion]
        dsimp only
        omega
      · dsimp only
        rw [hstats]
        exact h.reads
      · dsimp only
        rw [hstats, hwaits, if_neg fun hs => PushOutcome.noConfusion hs.1]
        exact hframes
  by_cases hbig : maxFrameBytes < payload.length
  · have hpush : l.buffer.push seq timestamp payload = (.tooBig, l.buffer) := if_pos hbig
    rw [step, hpush]
    dsimp only
    rw [if_pos rfl, if_neg fun hs => PushOutcome.noConfusion hs.1]
    exact ⟨by dsimp only; omega, h.reads, hframes⟩
  by_cases hstarted : l.buffer.started = true
  · by_cases hlate : newerThan l.buffer.nextSeq seq = true
    · have hpush : l.buffer.push seq timestamp payload = (.late, { l.buffer with
          stats := { l.buffer.stats with late := l.buffer.stats.late + 1 } }) := by
        rw [JitterBuffer.push, if_neg hbig, if_neg (not_not.mpr hstarted), if_pos hlate]
      rw [step, hpush]
      dsimp only
      rw [if_neg PushOutcome.noConfusion, if_neg fun hs => PushOutcome.noConfusion hs.1]
      exact ⟨by dsimp only; omega, h.reads, hframes⟩
    · by_cases hnewer : newerThan seq l.buffer.newestSeq = true
      · refine stores { l.buffer with newestSeq := seq } rfl rfl ?_
        rw [JitterBuffer.push, if_neg hbig, if_neg (not_not.mpr hstarted), if_neg hlate, if_pos hnewer]
      · refine stores l.buffer rfl rfl ?_
        rw [JitterBuffer.push, if_neg hbig, if_neg (not_not.mpr hstarted), if_neg hlate, if_neg hnewer]
  · refine stores { l.buffer with nextSeq := seq, newestSeq := seq, started := true } rfl rfl ?_
    rw [JitterBuffer.push, if_neg hbig, if_pos hstarted]

/-- A read finds the frame, and takes it, or not. -/
theorem take_counts (jb : JitterBuffer) (expect : UInt16) : (jb.take expect).2.stats = jb.stats ∧
    ((jb.take expect).1 = .missing ∧ (jb.take expect).2.waiting = jb.waiting ∨
      (∃ data timestamp, (jb.take expect).1 = .frame data timestamp) ∧
        (jb.take expect).2.waiting + 1 = jb.waiting) := by
  rw [JitterBuffer.take]
  split
  · exact ⟨rfl, .inl ⟨rfl, rfl⟩⟩
  · rename_i hhas
    split
    · exact ⟨rfl, .inl ⟨rfl, rfl⟩⟩
    · exact ⟨rfl, .inr ⟨⟨_, _, rfl⟩, writtenSlots_take (Slot.written_of_has (not_not.mp hhas))⟩⟩

theorem Balanced.pop {l : BufferLedger} (h : Balanced l) : Balanced (l.step .pop) := by
  have hreads := h.reads
  have hframes := h.frames
  rw [step, JitterBuffer.popNext]
  by_cases hstarted : l.buffer.started = true
  · rw [if_neg (not_not.mpr hstarted), if_pos hstarted]
    dsimp only
    obtain ⟨hstats, hcounts⟩ := take_counts l.buffer l.buffer.nextSeq
    generalize l.buffer.take l.buffer.nextSeq = r at hstats hcounts ⊢
    obtain ⟨outcome, buffer⟩ := r
    dsimp only at hstats hcounts ⊢
    rcases hcounts with ⟨rfl, hwaits⟩ | ⟨⟨data, timestamp, rfl⟩, hwaits⟩
    · refine ⟨?_, ?_, ?_⟩
      · dsimp only
        rw [hstats]
        exact h.pushes
      · dsimp only
        rw [hstats, hreads]
        rfl
      · show buffer.stats.received = _ + buffer.waiting
        dsimp only
        rw [hstats, hwaits]
        exact hframes
    · refine ⟨?_, ?_, ?_⟩
      · dsimp only
        rw [hstats]
        exact h.pushes
      · dsimp only
        rw [hstats]
        omega
      · show buffer.stats.received = buffer.stats.played + 1 + _ + _ + _ + buffer.waiting
        dsimp only
        rw [hstats]
        omega
  · rw [if_pos hstarted, if_neg hstarted]
    exact h

theorem Balanced.skip {l : BufferLedger} (h : Balanced l) : Balanced (l.step .skip) := by
  have hframes := h.frames
  rw [step, JitterBuffer.skipNext]
  by_cases hstarted : ¬ l.buffer.started = true
  · rw [if_pos hstarted]
    exact h
  · rw [if_neg hstarted]
    refine ⟨h.pushes, h.reads, ?_⟩
    by_cases hhad : (l.buffer.slots (slotOf l.buffer.nextSeq)).has l.buffer.nextSeq = true
    · have htaken := writtenSlots_take (Slot.written_of_has hhad)
      have hwaits : l.buffer.waiting = writtenSlots l.buffer.slots := rfl
      dsimp only [JitterBuffer.waiting] at htaken ⊢
      rw [if_pos hhad, if_pos hhad]
      omega
    · dsimp only
      rw [if_neg hhad, if_neg hhad]
      exact hframes

theorem Balanced.reset {l : BufferLedger} (h : Balanced l) : Balanced (l.step .reset) := by
  have hframes := h.frames
  have hnone : l.buffer.reset.waiting = 0 := by
    show ((List.finRange ringSlots).map fun _ => 0).sum = 0
    rw [List.map_const', List.sum_replicate_nat, Nat.mul_zero]
  refine ⟨h.pushes, h.reads, ?_⟩
  show l.buffer.stats.received = _ + (l.discarded + l.buffer.waiting) + l.buffer.reset.waiting
  rw [hnone]
  show _ = l.buffer.stats.played + l.skipped + l.overwritten + (l.discarded + l.buffer.waiting) + 0
  omega

theorem Balanced.step {l : BufferLedger} (h : Balanced l) (op : BufferOp) : Balanced (l.step op) := by
  cases op with
  | push seq timestamp payload => exact h.push seq timestamp payload
  | pop => exact h.pop
  | skip => exact h.skip
  | reset => exact h.reset

end BufferLedger

/-! ## Main result -/

/-- Whatever is done to a buffer, and in whatever order: every push was stored, late, a duplicate or too
big; every read of a stream that has begun was played or concealed; and every stored frame was played,
skipped, overwritten or discarded by a reset, or waits in the ring. -/
theorem frames_conserved (ops : List BufferOp) :
    let l := BufferLedger.run ops
    let stats := l.buffer.stats
    l.pushed = stats.received + stats.late + stats.duplicates + l.tooBig ∧
      l.popped = stats.played + stats.concealed ∧
      stats.received = stats.played + l.skipped + l.overwritten + l.discarded + l.buffer.waiting := by
  have h : BufferLedger.Balanced (BufferLedger.run ops) := by
    induction ops using List.reverseRecOn with
    | nil => exact BufferLedger.balanced_new
    | append_singleton ops op ih =>
      rw [BufferLedger.run, List.foldl_concat]
      exact ih.step op
  exact ⟨h.pushes, h.reads, h.frames⟩

end OnlineJam
