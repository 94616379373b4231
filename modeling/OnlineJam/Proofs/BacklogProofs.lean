import OnlineJam.Proofs.BufferProofs
import Mathlib.Data.Fintype.Card

/-!
# Proofs: the backlog of an earlier stream

The slots that still hold a frame from before a certain push. Nothing adds to them, a pop that returns
one of their frames takes it away, and a reset takes all.
-/

namespace OnlineJam

namespace BufferLog

/-- The slots that hold one of the first `count` stored frames. -/
def backlog (log : BufferLog) (count : Nat) : Finset (Fin ringSlots) :=
  Finset.univ.filter fun i => (log.buffer.slots i).state = .written ∧
    (log.latest (log.buffer.slots i).seq).any (fun e => e.1 < count) = true

theorem mem_backlog {log : BufferLog} {count : Nat} {i : Fin ringSlots} :
    i ∈ log.backlog count ↔ (log.buffer.slots i).state = .written ∧
      ∃ m f, log.latest (log.buffer.slots i).seq = some (m, f) ∧ m < count := by
  simp [backlog, Option.any_eq_true]

theorem card_backlog_le (log : BufferLog) (count : Nat) : (log.backlog count).card ≤ ringSlots :=
  Finset.card_le_univ _

/-- What a push changes: a slot gets the frame with the next number, or nothing happens. -/
theorem push_cases {log : BufferLog} (h : log.Sound) (seq : UInt16) (timestamp : UInt32)
    (payload : Bytes) :
    ((log.push seq timestamp payload).count = log.count ∧
      (log.push seq timestamp payload).latest = log.latest ∧
      (log.push seq timestamp payload).buffer.slots = log.buffer.slots) ∨
    ((log.push seq timestamp payload).count = log.count + 1 ∧
      (log.push seq timestamp payload).latest =
        Function.update log.latest seq (some (log.count, ⟨timestamp, payload⟩)) ∧
      ∃ slot : Slot, slot.state = .written ∧ slot.seq = seq ∧
        (log.push seq timestamp payload).buffer.slots =
          Function.update log.buffer.slots (slotOf seq) slot) := by
  have hr := log.buffer.push_pushes seq ⟨timestamp, payload⟩ h.placed.idle
  rw [push]
  generalize log.buffer.push seq timestamp payload = r at hr ⊢
  obtain ⟨outcome, buffer⟩ := r
  dsimp only
  cases hr with
  | refuses hne hslots =>
    rw [if_neg hne]
    exact Or.inl ⟨rfl, rfl, hslots⟩
  | stores slot hout hslots hholds =>
    rw [if_pos hout]
    exact Or.inr ⟨rfl, rfl, slot, hholds.written, hholds.seq.trans (lowSeq_natCast seq), hslots⟩

theorem backlog_push {log : BufferLog} (h : log.Sound) {count : Nat} (hc : count ≤ log.count)
    (seq : UInt16) (timestamp : UInt32) (payload : Bytes) :
    (log.push seq timestamp payload).backlog count ⊆ log.backlog count := by
  intro i hi
  rw [mem_backlog] at hi ⊢
  rcases push_cases h seq timestamp payload with ⟨-, hl, hs⟩ | ⟨-, hl, slot, -, hseq, hs⟩
  · rwa [hl, hs] at hi
  · rw [hl, hs] at hi
    obtain ⟨hw, m, f, hm, hlt⟩ := hi
    by_cases he : i = slotOf seq
    · -- The new frame has a number of its own.
      rw [he, Function.update_self, hseq, Function.update_self] at hm
      cases hm
      omega
    · rw [Function.update_of_ne he] at hw hm
      have hne : (log.buffer.slots i).seq ≠ seq := fun hq =>
        he ((h.placed i hw).2.1.symm.trans (congrArg slotOf hq))
      rw [Function.update_of_ne hne] at hm
      exact ⟨hw, m, f, hm, hlt⟩

theorem backlog_read {log log' : BufferLog} (hr : log.buffer.Reads log'.buffer)
    (hl : log'.latest = log.latest) (count : Nat) : log'.backlog count ⊆ log.backlog count := by
  intro i hi
  rw [mem_backlog] at hi ⊢
  obtain ⟨hw, m, f, hm, hlt⟩ := hi
  have heq := (hr.left i hw).1
  rw [heq] at hw hm
  exact ⟨hw, m, f, hl ▸ hm, hlt⟩

theorem pop_reads {log : BufferLog} (h : log.Sound) : log.buffer.Reads log.pop.buffer := by
  rw [pop_buffer]
  exact log.buffer.popNext_reads fun hh => h.fits ((Slot.has_iff _ _).mp hh).1

theorem backlog_pop {log : BufferLog} (h : log.Sound) (count : Nat) :
    log.pop.backlog count ⊆ log.backlog count :=
  backlog_read (pop_reads h) log.pop_log.2.1 count

/-- A pop that returns a frame finds it in the slot of the read position. -/
theorem pop_finds {log : BufferLog} (h : log.Sound) {data : Bytes} {timestamp : UInt32}
    (hp : log.buffer.popNext.1 = .frame data timestamp) : log.buffer.started = true ∧
      (log.buffer.slots (slotOf log.buffer.nextSeq)).state = .written ∧
      (log.buffer.slots (slotOf log.buffer.nextSeq)).seq = log.buffer.nextSeq := by
  obtain ⟨hs, -⟩ := h.frame hp
  by_cases hh : (log.buffer.slots (slotOf log.buffer.nextSeq)).has log.buffer.nextSeq = true
  · exact ⟨hs, (Slot.has_iff _ _).mp hh⟩
  · obtain ⟨h1, -⟩ := JitterBuffer.popNext_of_take hs rfl (if_pos hh)
    rw [h1] at hp
    cases hp

/-- A returned frame leaves the backlog. -/
theorem backlog_pop_lt {log : BufferLog} (h : log.Sound) {count m : Nat} {f : Frame} {data : Bytes}
    {timestamp : UInt32} (hp : log.buffer.popNext.1 = .frame data timestamp)
    (hm : log.latest log.buffer.nextSeq = some (m, f)) (hlt : m < count) :
    (log.pop.backlog count).card < (log.backlog count).card := by
  obtain ⟨hs, hw, hseq⟩ := pop_finds h hp
  refine Finset.card_lt_card ⟨backlog_pop h count, fun hsub => ?_⟩
  have hin : slotOf log.buffer.nextSeq ∈ log.backlog count :=
    mem_backlog.mpr ⟨hw, m, f, hseq.symm ▸ hm, hlt⟩
  obtain ⟨hw', -⟩ := mem_backlog.mp (hsub hin)
  obtain ⟨-, hpast⟩ := (pop_reads h).left _ hw'
  exact hpast hs (by rw [hseq]) hseq

end BufferLog

end OnlineJam
