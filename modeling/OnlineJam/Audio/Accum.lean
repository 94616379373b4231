import OnlineJam.Audio.Resample
import OnlineJam.Lib.Ring

/-!
# The sample FIFO as a ring

`SampleFifo` of `jam-audio`, `accum.rs`, with its buffer, head and length. What it is for is the queue of
`Resample`, to which every operation corresponds.
-/

namespace OnlineJam

open OnlineJam.Lib

structure SampleRing where
  buf : List ℚ
  head : Nat
  len : Nat
  head_lt : head < buf.length
  len_le : len ≤ buf.length

namespace SampleRing

def new (capacity : Nat) (h : 0 < capacity) : SampleRing :=
  { buf := List.replicate capacity 0, head := 0, len := 0
    head_lt := by rwa [List.length_replicate]
    len_le := Nat.zero_le _ }

abbrev capacity (f : SampleRing) : Nat := f.buf.length

theorem capacity_pos (f : SampleRing) : 0 < f.capacity := Nat.zero_lt_of_lt f.head_lt

/-- Appends samples, dropping the oldest ones on overflow; returns how many were dropped. -/
def push (f : SampleRing) (samples : List ℚ) : Nat × SampleRing :=
  if h : f.capacity ≤ samples.length then
    -- The incoming block alone fills the FIFO.
    (f.len + samples.length - f.capacity,
      { buf := samples.drop (samples.length - f.capacity), head := 0, len := f.capacity
        head_lt := by
          have hpos := f.capacity_pos
          rw [List.length_drop]
          omega
        len_le := by
          rw [List.length_drop]
          omega })
  else
    let overflow := f.len + samples.length - f.capacity
    let head := if 0 < overflow then (f.head + overflow) % f.capacity else f.head
    let len := f.len - overflow
    let tail := (head + len) % f.capacity
    have hbuf : (overwriteRing f.buf tail samples).length = f.capacity :=
      (overwriteRing_rotate (Nat.mod_lt _ f.capacity_pos).le (Nat.le_of_not_le h)).1
    (overflow,
      { buf := overwriteRing f.buf tail samples, head := head, len := len + samples.length
        head_lt := by
          have hlt := f.head_lt
          have hmod := Nat.mod_lt (f.head + overflow) f.capacity_pos
          rw [hbuf]
          dsimp only [head]
          split
          · exact hmod
          · exact hlt
        len_le := by
          have hle := f.len_le
          rw [hbuf]
          dsimp only [len, overflow]
          rw [capacity] at h ⊢
          omega })

/-- Pops exactly `m` samples, or none. -/
def pop (f : SampleRing) (m : Nat) : Option (List ℚ) × SampleRing :=
  if f.len < m then (none, f)
  else
    (some (readRing f.buf f.head m),
      { f with
        head := (f.head + m) % f.capacity
        len := f.len - m
        head_lt := Nat.mod_lt _ f.capacity_pos
        len_le := (Nat.sub_le _ _).trans f.len_le })

/-! ## The queue it stands for -/

/-- What is stored, the oldest sample first. -/
def fifo (f : SampleRing) : SampleFifo := { capacity := f.capacity, samples := window f.buf f.head f.len }

end SampleRing

end OnlineJam
