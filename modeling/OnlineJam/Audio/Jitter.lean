import OnlineJam.Protocol.Packet
import Mathlib.Data.Rat.Defs
import Mathlib.Logic.Function.Basic

/-!
# Jitter buffer

The ring of `jam-audio`, `jitter.rs`, with one writer (the receive thread) and one reader (the audio
callback). Each operation is one atomic step here, so the reader's second look at the slot after the
copy sees what the first one saw and is not repeated.
-/

namespace OnlineJam

/-- `SLOTS`. -/
abbrev ringSlots : Nat := 64

/-- Upper bound for one encoded frame's payload on the wire. -/
abbrev maxFrameBytes : Nat := 1024

inductive SlotState where
  | empty | writing | written
  deriving DecidableEq, Repr

structure Slot where
  state : SlotState
  seq : UInt16
  timestamp : UInt32
  len : UInt16
  /-- All `maxFrameBytes` bytes of the slot; the frame is the first `len` of them. -/
  payload : Bytes

def Slot.new : Slot :=
  { state := .empty, seq := 0, timestamp := 0, len := 0, payload := List.replicate maxFrameBytes 0 }

/-- The slot holds a frame of this sequence number. -/
def Slot.has (s : Slot) (seq : UInt16) : Bool := s.state == .written && s.seq == seq

inductive PushOutcome where
  | stored
  /-- Arrived after its playout slot had already been concealed. -/
  | late
  /-- Same seq already present. -/
  | duplicate
  /-- Payload larger than `maxFrameBytes`. -/
  | tooBig
  deriving DecidableEq, Repr

inductive PopOutcome where
  /-- The bytes copied into `out`, and the sender timestamp. -/
  | frame (data : Bytes) (timestamp : UInt32)
  /-- Nothing usable for this sequence number: conceal. -/
  | missing
  deriving DecidableEq, Repr

/-- The counters the UI reads. The jitter estimate is exact. -/
structure JitterStats where
  received : Nat
  late : Nat
  duplicates : Nat
  concealed : Nat
  played : Nat
  resets : Nat
  jitterUs : ℚ
  deriving DecidableEq

def JitterStats.new : JitterStats :=
  { received := 0, late := 0, duplicates := 0, concealed := 0, played := 0, resets := 0,
    jitterUs := 0 }

structure JitterBuffer where
  slots : Fin ringSlots → Slot
  /-- Next sequence number the reader will play. -/
  nextSeq : UInt16
  /-- Newest sequence number stored. -/
  newestSeq : UInt16
  /-- True from the first push on; the two cursors are garbage before. -/
  started : Bool
  stats : JitterStats

/-- `seq as usize % SLOTS`. -/
def slotOf (seq : UInt16) : Fin ringSlots := Fin.ofNat ringSlots seq.toNat

namespace JitterBuffer

def new : JitterBuffer :=
  { slots := fun _ => Slot.new, nextSeq := 0, newestSeq := 0, started := false,
    stats := JitterStats.new }

/-- The second half of `push`, after the cursors are settled. -/
def store (jb : JitterBuffer) (incoming : UInt16) (timestamp : UInt32) (payload : Bytes) :
    PushOutcome × JitterBuffer :=
  let slot := jb.slots (slotOf incoming)
  if slot.has incoming then
    (.duplicate, { jb with stats := { jb.stats with duplicates := jb.stats.duplicates + 1 } })
  else
    let slot : Slot :=
      { state := .written, seq := incoming, timestamp := timestamp,
        len := UInt16.ofNat payload.length, payload := payload ++ slot.payload.drop payload.length }
    (.stored,
      { jb with
        slots := Function.update jb.slots (slotOf incoming) slot
        stats := { jb.stats with received := jb.stats.received + 1 } })

/-- Writer side. The first push establishes the stream position for both sides. -/
def push (jb : JitterBuffer) (incoming : UInt16) (timestamp : UInt32) (payload : Bytes) :
    PushOutcome × JitterBuffer :=
  if maxFrameBytes < payload.length then (.tooBig, jb)
  else if ¬ jb.started then
    store { jb with nextSeq := incoming, newestSeq := incoming, started := true }
      incoming timestamp payload
  else if newerThan jb.nextSeq incoming then
    (.late, { jb with stats := { jb.stats with late := jb.stats.late + 1 } })
  else if newerThan incoming jb.newestSeq then
    store { jb with newestSeq := incoming } incoming timestamp payload
  else store jb incoming timestamp payload

def publishJitterUs (jb : JitterBuffer) (jitterUs : ℚ) : JitterBuffer :=
  { jb with stats := { jb.stats with jitterUs := jitterUs } }

/-- Frames buffered ahead of the read position, the one at the read position included. -/
def depth (jb : JitterBuffer) : Int :=
  if ¬ jb.started then 0 else diff jb.newestSeq jb.nextSeq + 1

def isStarted (jb : JitterBuffer) : Bool := jb.started

/-- Empties the slot of `expect` and returns its frame. -/
def take (jb : JitterBuffer) (expect : UInt16) : PopOutcome × JitterBuffer :=
  let slot := jb.slots (slotOf expect)
  if ¬ slot.has expect then (.missing, jb)
  else if maxFrameBytes < slot.len.toNat then (.missing, jb)
  else
    (.frame (slot.payload.take slot.len.toNat) slot.timestamp,
      { jb with slots := Function.update jb.slots (slotOf expect) { slot with state := .empty } })

/-- Reader side: pops the frame at the read position, which advances by one in any case. -/
def popNext (jb : JitterBuffer) : PopOutcome × JitterBuffer :=
  if ¬ jb.started then (.missing, jb)
  else
    let expect := jb.nextSeq
    let (outcome, jb) := jb.take expect
    let stats := match outcome with
      | .frame .. => { jb.stats with played := jb.stats.played + 1 }
      | .missing => { jb.stats with concealed := jb.stats.concealed + 1 }
    (outcome, { jb with nextSeq := expect + 1, stats := stats })

/-- Reader side: drops the frame at the read position; returns whether there was one. -/
def skipNext (jb : JitterBuffer) : Bool × JitterBuffer :=
  if ¬ jb.started then (false, jb)
  else
    let expect := jb.nextSeq
    let slot := jb.slots (slotOf expect)
    let had := slot.has expect
    let slots := if had then
        Function.update jb.slots (slotOf expect) { slot with state := .empty }
      else jb.slots
    (had, { jb with slots := slots, nextSeq := expect + 1 })

/-- Forgets the stream position; the next push establishes it again. -/
def reset (jb : JitterBuffer) : JitterBuffer :=
  { jb with
    slots := fun i => { jb.slots i with state := .empty }
    started := false
    stats := { jb.stats with resets := jb.stats.resets + 1 } }

end JitterBuffer

/-! ## Inter-arrival jitter -/

/-- Inter-arrival jitter, computed by the receive thread in exact arithmetic. -/
structure ArrivalJitter where
  /-- Arrival and media time of the previous packet, in microseconds. -/
  prev : Option (Nat × Nat)
  jUs : ℚ
  deriving DecidableEq

namespace ArrivalJitter

def new : ArrivalJitter := { prev := none, jUs := 0 }

/-- `arrivalUs` is the local receive time, `mediaUs` the sender's media clock. -/
def onArrival (a : ArrivalJitter) (arrivalUs mediaUs : Nat) : ℚ × ArrivalJitter :=
  let jUs := match a.prev with
    | some (pa, pm) =>
      let transit : Int := arrivalUs - mediaUs
      let prevTransit : Int := pa - pm
      let d : ℚ := (transit - prevTransit).natAbs
      a.jUs + (d - a.jUs) / 16
    | none => a.jUs
  (jUs, { prev := some (arrivalUs, mediaUs), jUs := jUs })

end ArrivalJitter

end OnlineJam
