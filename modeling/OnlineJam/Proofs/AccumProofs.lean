import OnlineJam.Audio.Accum

/-!
# Proofs: the ring is a queue

Wherever the head stands, a push and a pop of the ring are those of the queue it stands for.
-/

namespace OnlineJam

open OnlineJam.Lib

namespace SampleRing

theorem fifo_len (f : SampleRing) : f.fifo.len = f.len := length_window f.len_le

theorem fifo_new (capacity : Nat) (h : 0 < capacity) : (new capacity h).fifo = SampleFifo.new capacity := by
  rw [fifo, SampleFifo.new, SampleRing.capacity, new, window, List.take_zero, List.length_replicate]

theorem push_fifo (f : SampleRing) (samples : List ℚ) :
    (f.push samples).1 = (f.fifo.push samples).1 ∧ (f.push samples).2.fifo = (f.fifo.push samples).2 := by
  have hwindow : (window f.buf f.head f.len).length = f.len := length_window f.len_le
  have hle := f.len_le
  rw [push, SampleFifo.push, fifo]
  dsimp only
  rw [List.length_append, hwindow]
  split
  · rename_i hbig
    refine ⟨rfl, ?_⟩
    have hlen : (samples.drop (samples.length - f.capacity)).length = f.capacity := by
      rw [List.length_drop]
      omega
    rw [fifo, capacity, hlen, window, List.rotate_zero, List.take_of_length_le hlen.le]
    congr 1
    have hnil : (window f.buf f.head f.len).drop (f.len + samples.length - f.capacity) = [] :=
      List.drop_of_length_le (by rw [hwindow]; omega)
    rw [List.drop_append, hwindow, hnil, List.nil_append]
    congr 1
    omega
  · rename_i hsmall
    have hover : f.len + samples.length - f.capacity ≤ f.len := by omega
    -- With nothing to drop the head stays where it is.
    have hhead : (if 0 < f.len + samples.length - f.capacity then
        (f.head + (f.len + samples.length - f.capacity)) % f.capacity else f.head) =
        (f.head + (f.len + samples.length - f.capacity)) % f.capacity := by
      split
      · rfl
      · rename_i hnone
        rw [Nat.eq_zero_of_not_pos hnone, Nat.add_zero]
        exact (Nat.mod_eq_of_lt f.head_lt).symm
    have hroom : f.len - (f.len + samples.length - f.capacity) + samples.length ≤ f.capacity := by
      omega
    refine ⟨rfl, ?_⟩
    rw [fifo, SampleFifo.mk.injEq]
    refine ⟨(overwriteRing_rotate (Nat.mod_lt _ f.capacity_pos).le (Nat.le_of_not_le hsmall)).1, ?_⟩
    dsimp only
    rw [hhead]
    generalize f.len + samples.length - f.capacity = overflow at hover hroom ⊢
    rw [window_overwriteRing f.capacity_pos hroom,
      List.drop_append_of_le_length (by rw [hwindow]; exact hover), ← window_drop hover hle]

theorem pop_fifo (f : SampleRing) (m : Nat) :
    (f.pop m).1 = (f.fifo.pop m).1 ∧ (f.pop m).2.fifo = (f.fifo.pop m).2 := by
  rw [pop, SampleFifo.pop, fifo_len]
  have hle := f.len_le
  split
  · exact ⟨rfl, rfl⟩
  · rename_i hm
    have hm' : m ≤ f.len := Nat.le_of_not_lt hm
    refine ⟨?_, ?_⟩
    · rw [readRing_eq f.head_lt.le (by omega), fifo, window, window, List.take_take, Nat.min_eq_left hm']
    · rw [fifo, fifo, ← window_drop hm' hle]

end SampleRing

end OnlineJam
