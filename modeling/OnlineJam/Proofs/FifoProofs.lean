import OnlineJam.Audio.AccumChecked
import OnlineJam.Proofs.AccumProofs

/-!
# Proofs: the FIFO with checked accesses

On the fields of a ring every access is in range, and does what the ring does. So every sequence of calls
is answered as by the bounded queue.
-/

namespace OnlineJam

open OnlineJam.Lib

namespace SampleRing

/-- The fields alone. -/
def raw (f : SampleRing) : RawFifo := { buf := f.buf, head := f.head, len := f.len }

@[simp] theorem raw_buf (f : SampleRing) : f.raw.buf = f.buf := rfl

@[simp] theorem raw_head (f : SampleRing) : f.raw.head = f.head := rfl

@[simp] theorem raw_len (f : SampleRing) : f.raw.len = f.len := rfl

theorem raw_new (capacity : Nat) (h : 0 < capacity) : (new capacity h).raw = RawFifo.new capacity := rfl

theorem raw_stored (f : SampleRing) : f.raw.stored = f.fifo.samples :=
  (window_eq_map 0 f.len_le).symm

theorem copyIn_eq {buf samples : List ℚ} {tail : Nat} (htail : tail ≤ buf.length)
    (hlen : samples.length ≤ buf.length) :
    RawFifo.copyIn buf tail samples = some (overwriteRing buf tail samples) := by
  have hfirst : min (buf.length - tail) samples.length ≤ samples.length := Nat.min_le_right _ _
  rw [RawFifo.copyIn, checkedSub_eq htail]
  dsimp only [Option.bind_eq_bind, Option.bind_some]
  rw [slice_take hfirst, checkedSub_eq hfirst, slice_drop hfirst]
  exact copyAt_twice htail hlen

theorem copyOut_eq {buf out : List ℚ} {head : Nat} (hhead : head ≤ buf.length)
    (hlen : out.length ≤ buf.length) :
    RawFifo.copyOut buf head out = some (readRing buf head out.length) := by
  have hfirst : min (buf.length - head) out.length ≤ out.length := Nat.min_le_right _ _
  have hslice : head + min (buf.length - head) out.length ≤ buf.length := by omega
  rw [RawFifo.copyOut, checkedSub_eq hhead]
  dsimp only [Option.bind_eq_bind, Option.bind_some]
  rw [slice_add hslice, checkedSub_eq hfirst]
  dsimp only [Option.bind_some]
  rw [slice_take (by omega)]
  exact copyAt_readRing hlen

theorem raw_dropOldest (f : SampleRing) {overflow : Nat} (h : overflow ≤ f.len) :
    f.raw.dropOldest overflow = some
      { buf := f.buf
        head := if 0 < overflow then (f.head + overflow) % f.capacity else f.head
        len := f.len - overflow } := by
  rw [RawFifo.dropOldest, raw_buf, raw_head, raw_len]
  split
  · rw [checkedMod_eq f.capacity_pos, checkedSub_eq h]
    rfl
  · rename_i hnone
    rw [Nat.eq_zero_of_not_pos hnone]
    rfl

theorem raw_push (f : SampleRing) (samples : List ℚ) :
    f.raw.push samples = some ((f.push samples).1, (f.push samples).2.raw) := by
  have hpos := f.capacity_pos
  have hle := f.len_le
  rw [RawFifo.push, push, raw_buf]
  dsimp only
  by_cases hbig : f.capacity ≤ samples.length
  · have hdrop : (samples.drop (samples.length - f.capacity)).length = f.buf.length := by
      rw [List.length_drop]
      exact Nat.sub_sub_self hbig
    have hdropped : f.capacity ≤ f.raw.len + samples.length := hbig.trans (Nat.le_add_left _ _)
    rw [if_pos hbig, dif_pos hbig, checkedSub_eq hdropped, checkedSub_eq hbig]
    dsimp only [Option.bind_eq_bind, Option.bind_some]
    rw [slice_drop (Nat.sub_le _ _), Option.bind_some, copyFrom, if_pos hdrop]
    rfl
  · have hover : f.len + samples.length - f.capacity ≤ f.len := by omega
    rw [if_neg hbig, dif_neg hbig]
    dsimp only [Option.bind_eq_bind, Option.bind_some]
    rw [raw_len, raw_dropOldest f hover, Option.bind_some,
      checkedMod_eq hpos, Option.bind_some]
    dsimp only
    rw [copyIn_eq (Nat.mod_lt _ hpos).le (Nat.le_of_not_le hbig)]
    rfl

theorem raw_pop (f : SampleRing) (out : List ℚ) :
    f.raw.pop out =
      some (((f.pop out.length).1.isSome, (f.pop out.length).1.getD out), (f.pop out.length).2.raw) := by
  have hle := f.len_le
  rw [RawFifo.pop, pop, raw_buf, raw_head, raw_len]
  split
  · rfl
  · rename_i hm
    have hm' : out.length ≤ f.len := Nat.le_of_not_lt hm
    rw [copyOut_eq f.head_lt.le (hm'.trans hle), checkedMod_eq f.capacity_pos, checkedSub_eq hm']
    rfl

end SampleRing

/-- The fields are those of a ring that stands for the queue. -/
def RawFifo.Is (capacity : Nat) (raw : RawFifo) (queue : SampleFifo) : Prop :=
  ∃ f : SampleRing, f.raw = raw ∧ f.fifo = queue ∧ f.capacity = capacity

theorem fifo_refines (capacity : Nat) : Refines (RawFifo.Is capacity) RawFifo.exec SampleFifo.exec := by
  rintro _ _ call ⟨f, rfl, rfl, hcapacity⟩
  cases call with
  | push samples =>
    obtain ⟨hdropped, hqueue⟩ := f.push_fifo samples
    refine ⟨(f.push samples).2.raw, ?_, (f.push samples).2, rfl, hqueue, ?_⟩
    · rw [RawFifo.exec, f.raw_push]
      show some (FifoReply.pushed (f.push samples).1, (f.push samples).2.raw) =
        some (FifoReply.pushed (f.fifo.push samples).1, (f.push samples).2.raw)
      rw [hdropped]
    · exact (congrArg SampleFifo.capacity hqueue).trans hcapacity
  | pop out =>
    obtain ⟨hpopped, hqueue⟩ := f.pop_fifo out.length
    refine ⟨(f.pop out.length).2.raw, ?_, (f.pop out.length).2, rfl, hqueue, ?_⟩
    · rw [RawFifo.exec, f.raw_pop]
      show some (FifoReply.popped (f.pop out.length).1.isSome ((f.pop out.length).1.getD out), _) =
        some (FifoReply.popped (f.fifo.pop out.length).1.isSome ((f.fifo.pop out.length).1.getD out), _)
      rw [hpopped]
    · refine (congrArg SampleFifo.capacity hqueue).trans ?_
      rw [SampleFifo.pop]
      split <;> exact hcapacity

/-- Every sequence of calls stays in range and is answered as by the bounded queue, with the same samples
stored afterwards. -/
theorem fifo_refines_queue (capacity : Nat) (h : 0 < capacity) (calls : List FifoCall) :
    ∃ f, checkedReplies RawFifo.exec (RawFifo.new capacity) calls =
        some ((replies SampleFifo.exec (SampleFifo.new capacity) calls).1, f) ∧
      f.stored = (replies SampleFifo.exec (SampleFifo.new capacity) calls).2.samples ∧
      f.len = f.stored.length ∧ f.len ≤ capacity ∧ f.buf.length = capacity := by
  have hnew : RawFifo.Is capacity (RawFifo.new capacity) (SampleFifo.new capacity) :=
    ⟨SampleRing.new capacity h, rfl, SampleRing.fifo_new capacity h, List.length_replicate⟩
  obtain ⟨_, hcalls, f, rfl, hqueue, hcapacity⟩ := (fifo_refines capacity).replies hnew calls
  refine ⟨f.raw, hcalls, ?_, ?_, ?_, hcapacity⟩
  · rw [f.raw_stored, hqueue]
  · rw [f.raw_stored]
    exact f.fifo_len.symm
  · exact f.len_le.trans hcapacity.le

theorem fifo_refines_queue_overflow :
    ∃ f, checkedReplies RawFifo.exec (RawFifo.new 4)
        [.push [1, 2, 3, 4], .push [5, 6], .pop [0, 0, 0], .pop [0, 0]] =
        some ([.pushed 0, .pushed 2, .popped true [3, 4, 5], .popped false [0, 0]], f) ∧
      f.stored = [6] := by
  obtain ⟨f, hcalls, hstored, _⟩ := fifo_refines_queue 4 (by decide)
    [.push [1, 2, 3, 4], .push [5, 6], .pop [0, 0, 0], .pop [0, 0]]
  exact ⟨f, hcalls, hstored⟩

end OnlineJam
