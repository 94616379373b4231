import OnlineJam.Audio.JitterSpec

/-!
# A log of the jitter buffer

The buffer under any operations at all, with a log beside it that tells the stored pushes apart: each
has a number of its own, however often its sequence number comes round. The buffer never reads the log.
-/

namespace OnlineJam

/-- One operation on the buffer, as its two sides call it. -/
inductive BufferOp where
  | push (seq : UInt16) (timestamp : UInt32) (payload : Bytes)
  | pop
  | skip
  | reset

def BufferOp.isRead : BufferOp → Bool
  | pop | skip => true
  | _ => false

structure BufferLog where
  buffer : JitterBuffer
  /-- How many pushes were stored so far. -/
  count : Nat
  /-- The most recent stored push of each sequence number: its number, and what it carried. -/
  latest : UInt16 → Option (Nat × Frame)
  /-- The numbers of the pushes whose frames were returned. -/
  returned : List Nat
  /-- How many pushes had been stored at the last reset. -/
  resetAt : Nat

namespace BufferLog

def new : BufferLog :=
  { buffer := JitterBuffer.new, count := 0, latest := fun _ => none, returned := [], resetAt := 0 }

def push (log : BufferLog) (seq : UInt16) (timestamp : UInt32) (payload : Bytes) : BufferLog :=
  let (outcome, buffer) := log.buffer.push seq timestamp payload
  if outcome = .stored then
    { log with
      buffer := buffer
      count := log.count + 1
      latest := Function.update log.latest seq (some (log.count, ⟨timestamp, payload⟩)) }
  else { log with buffer := buffer }

/-- A frame that is returned counts for the most recent stored push of its number. -/
def pop (log : BufferLog) : BufferLog :=
  match log.buffer.popNext with
  | (.frame .., buffer) =>
    { log with
      buffer := buffer
      returned := log.returned ++ (log.latest log.buffer.nextSeq).toList.map Prod.fst }
  | (.missing, buffer) => { log with buffer := buffer }

def step (log : BufferLog) : BufferOp → BufferLog
  | .push seq timestamp payload => log.push seq timestamp payload
  | .pop => log.pop
  | .skip => { log with buffer := log.buffer.skipNext.2 }
  | .reset => { log with buffer := log.buffer.reset, resetAt := log.count }

/-- The buffer and its log after a list of operations on a fresh one. -/
def run (ops : List BufferOp) : BufferLog := ops.foldl step new

end BufferLog

/-! ## Where the frames go -/

/-- How many of these slots hold a frame. -/
def writtenSlots (slots : Fin ringSlots → Slot) : Nat :=
  ((List.finRange ringSlots).map fun i => if (slots i).state = .written then 1 else 0).sum

/-- How many frames wait in the ring. -/
def JitterBuffer.waiting (jb : JitterBuffer) : Nat := writtenSlots jb.slots

/-- The buffer with a count of what its own counters leave out. -/
structure BufferLedger where
  buffer : JitterBuffer
  pushed : Nat
  tooBig : Nat
  /-- Reads of a stream that has begun, for playing. -/
  popped : Nat
  /-- Frames that were dropped to shrink the buffer. -/
  skipped : Nat
  /-- Frames that a push found in the slot of its own. -/
  overwritten : Nat
  /-- Frames that a reset found in the ring. -/
  discarded : Nat

namespace BufferLedger

def new : BufferLedger :=
  { buffer := JitterBuffer.new, pushed := 0, tooBig := 0, popped := 0, skipped := 0, overwritten := 0
    discarded := 0 }

def step (l : BufferLedger) : BufferOp → BufferLedger
  | .push seq timestamp payload =>
    let (outcome, buffer) := l.buffer.push seq timestamp payload
    { l with
      buffer := buffer
      pushed := l.pushed + 1
      tooBig := l.tooBig + if outcome = .tooBig then 1 else 0
      overwritten := l.overwritten +
        if outcome = .stored ∧ (l.buffer.slots (slotOf seq)).state = .written then 1 else 0 }
  | .pop => { l with buffer := l.buffer.popNext.2, popped := l.popped + if l.buffer.started then 1 else 0 }
  | .skip =>
    let (had, buffer) := l.buffer.skipNext
    { l with buffer := buffer, skipped := l.skipped + if had then 1 else 0 }
  | .reset => { l with buffer := l.buffer.reset, discarded := l.discarded + l.buffer.waiting }

def run (ops : List BufferOp) : BufferLedger := ops.foldl step new

end BufferLedger

end OnlineJam
