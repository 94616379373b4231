import OnlineJam.Audio.JitterSpec
import OnlineJam.Lib.Run

/-!
# The two threads of the jitter buffer

`push` and `pop_next` again, one load or store of an atomic at a time: the writer and the reader each
have a position in their function and the values they hold in local variables, and share the buffer. The
steps of the two come in any order, all in one total order; no reset.
-/

namespace OnlineJam

/-- What the writer does next. -/
inductive PushPos where
  | idle
  | loadStarted
  /-- The three stores of the first push. -/
  | storeNext | storeNewest | storeStarted
  | loadNext | countLate
  | loadNewest | raiseNewest
  | loadState | loadSeq | countDuplicate
  | storeWriting | storeSeq | storeTimestamp | storeLen
  /-- The next byte, or the state once there is none. -/
  | storePayload (done : Nat)
  | countReceived
  deriving DecidableEq, Repr

/-- The writer, with the arguments of the push it is in and the outcome of the one it has done. -/
structure PushThread where
  pos : PushPos
  seq : UInt16
  frame : Frame
  outcome : Option PushOutcome
  deriving DecidableEq, Repr

namespace PushThread

def new : PushThread := { pos := .idle, seq := 0, frame := ⟨0, []⟩, outcome := none }

/-- A call of `push`; the length of the payload is checked before anything shared is touched. -/
def call (seq : UInt16) (frame : Frame) : PushThread :=
  if maxFrameBytes < frame.payload.length then
    { pos := .idle, seq := seq, frame := frame, outcome := some .tooBig }
  else { pos := .loadStarted, seq := seq, frame := frame, outcome := none }

def goto (w : PushThread) (pos : PushPos) : PushThread := { w with pos := pos }

def finish (w : PushThread) (outcome : PushOutcome) : PushThread :=
  { w with pos := .idle, outcome := some outcome }

end PushThread

namespace JitterBuffer

/-- A store to one of the atomics of the slot of `seq`. -/
def storeSlot (jb : JitterBuffer) (seq : UInt16) (f : Slot → Slot) : JitterBuffer :=
  { jb with slots := Function.update jb.slots (slotOf seq) (f (jb.slots (slotOf seq))) }

end JitterBuffer

/-- One step of `push`. -/
def PushThread.step (w : PushThread) (jb : JitterBuffer) : PushThread × JitterBuffer :=
  let slot := jb.slots (slotOf w.seq)
  match w.pos with
  | .idle => (w, jb)
  | .loadStarted => (w.goto (if ¬ jb.started then .storeNext else .loadNext), jb)
  | .storeNext => (w.goto .storeNewest, { jb with nextSeq := w.seq })
  | .storeNewest => (w.goto .storeStarted, { jb with newestSeq := w.seq })
  | .storeStarted => (w.goto .loadState, { jb with started := true })
  | .loadNext => (w.goto (if newerThan jb.nextSeq w.seq then .countLate else .loadNewest), jb)
  | .countLate => (w.finish .late, { jb with stats := { jb.stats with late := jb.stats.late + 1 } })
  | .loadNewest => (w.goto (if newerThan w.seq jb.newestSeq then .raiseNewest else .loadState), jb)
  | .raiseNewest => (w.goto .loadState, { jb with newestSeq := w.seq })
  | .loadState => (w.goto (if slot.state = .written then .loadSeq else .storeWriting), jb)
  | .loadSeq => (w.goto (if slot.seq = w.seq then .countDuplicate else .storeWriting), jb)
  | .countDuplicate =>
    (w.finish .duplicate, { jb with stats := { jb.stats with duplicates := jb.stats.duplicates + 1 } })
  | .storeWriting => (w.goto .storeSeq, jb.storeSlot w.seq fun s => { s with state := .writing })
  | .storeSeq => (w.goto .storeTimestamp, jb.storeSlot w.seq fun s => { s with seq := w.seq })
  | .storeTimestamp =>
    (w.goto .storeLen, jb.storeSlot w.seq fun s => { s with timestamp := w.frame.timestamp })
  | .storeLen =>
    (w.goto (.storePayload 0),
      jb.storeSlot w.seq fun s => { s with len := UInt16.ofNat w.frame.payload.length })
  | .storePayload done =>
    match w.frame.payload[done]? with
    | some b =>
      (w.goto (.storePayload (done + 1)),
        jb.storeSlot w.seq fun s => { s with payload := s.payload.set done b })
    | none => (w.goto .countReceived, jb.storeSlot w.seq fun s => { s with state := .written })
  | .countReceived =>
    (w.finish .stored, { jb with stats := { jb.stats with received := jb.stats.received + 1 } })

/-- What the reader does next. -/
inductive PopPos where
  | idle
  | loadStarted | loadNext
  /-- The first look at the slot. -/
  | loadState | loadSeq
  | loadLen | loadTimestamp
  /-- The next byte, or the state again once there is none. -/
  | loadPayload
  | reloadSeq | storeEmpty
  | storeNext (outcome : PopOutcome)
  | countOutcome (outcome : PopOutcome)
  deriving DecidableEq, Repr

/-- The reader, with the local variables of the pop it is in and the outcome of the one it has done. -/
structure PopThread where
  pos : PopPos
  expect : UInt16
  len : Nat
  timestamp : UInt32
  /-- The part of the output buffer that was copied. -/
  out : Bytes
  outcome : Option PopOutcome
  deriving DecidableEq, Repr

namespace PopThread

def new : PopThread :=
  { pos := .idle, expect := 0, len := 0, timestamp := 0, out := [], outcome := none }

/-- A call of `pop_next`. -/
def call (r : PopThread) : PopThread := { r with pos := .loadStarted, outcome := none }

def goto (r : PopThread) (pos : PopPos) : PopThread := { r with pos := pos }

def finish (r : PopThread) (outcome : PopOutcome) : PopThread :=
  { r with pos := .idle, outcome := some outcome }

/-- One step of `pop_next`, `take` included. -/
def step (r : PopThread) (jb : JitterBuffer) : PopThread × JitterBuffer :=
  let slot := jb.slots (slotOf r.expect)
  match r.pos with
  | .idle => (r, jb)
  | .loadStarted => (if ¬ jb.started then r.finish .missing else r.goto .loadNext, jb)
  | .loadNext => ({ r with pos := .loadState, expect := jb.nextSeq }, jb)
  | .loadState => (r.goto (if slot.state ≠ .written then .storeNext .missing else .loadSeq), jb)
  | .loadSeq => (r.goto (if slot.seq ≠ r.expect then .storeNext .missing else .loadLen), jb)
  | .loadLen => ({ r with pos := .loadTimestamp, len := slot.len.toNat }, jb)
  | .loadTimestamp =>
    ({ r with
        pos := if maxFrameBytes < r.len then .storeNext .missing else .loadPayload
        timestamp := slot.timestamp
        out := [] }, jb)
  | .loadPayload =>
    (if r.out.length < r.len then { r with out := r.out ++ [slot.payload.getD r.out.length 0] }
      else r.goto (if slot.state ≠ .written then .storeNext .missing else .reloadSeq), jb)
  | .reloadSeq => (r.goto (if slot.seq ≠ r.expect then .storeNext .missing else .storeEmpty), jb)
  | .storeEmpty =>
    (r.goto (.storeNext (.frame r.out r.timestamp)),
      jb.storeSlot r.expect fun s => { s with state := .empty })
  | .storeNext outcome => (r.goto (.countOutcome outcome), { jb with nextSeq := r.expect + 1 })
  | .countOutcome outcome =>
    (r.finish outcome,
      { jb with stats := match outcome with
          | .frame .. => { jb.stats with played := jb.stats.played + 1 }
          | .missing => { jb.stats with concealed := jb.stats.concealed + 1 } })

/-- Between the first look at the slot, which found it written, and the second look at its number. -/
def InTake (r : PopThread) : Prop :=
  r.pos ∈ [.loadSeq, .loadLen, .loadTimestamp, .loadPayload, .reloadSeq]

instance (r : PopThread) : Decidable r.InTake := by
  unfold InTake
  infer_instance

end PopThread

/-- The two threads and the buffer they share. -/
structure Threads where
  buffer : JitterBuffer
  writer : PushThread
  reader : PopThread
  /-- Every push that was called; never read. -/
  pushes : List (UInt16 × Frame)

inductive ThreadStep where
  | push (seq : UInt16) (frame : Frame)
  | pop
  | writer
  | reader
  deriving DecidableEq, Repr

namespace Threads

def new : Threads :=
  { buffer := JitterBuffer.new, writer := PushThread.new, reader := PopThread.new, pushes := [] }

/-- A thread calls its function again when it has returned, and takes steps until then. -/
def step (t : Threads) : ThreadStep → Option Threads
  | .push seq frame =>
    if t.writer.pos = .idle then
      some { t with writer := PushThread.call seq frame, pushes := t.pushes ++ [(seq, frame)] }
    else none
  | .pop => if t.reader.pos = .idle then some { t with reader := t.reader.call } else none
  | .writer =>
    if t.writer.pos = .idle then none
    else
      let (writer, buffer) := t.writer.step t.buffer
      some { t with writer := writer, buffer := buffer }
  | .reader =>
    if t.reader.pos = .idle then none
    else
      let (reader, buffer) := t.reader.step t.buffer
      some { t with reader := reader, buffer := buffer }

/-- The writer does not give the slot the number that the reader expects while the reader takes it. -/
def Undisturbed (t : Threads) (l : ThreadStep) : Prop :=
  ¬ (l = .writer ∧ t.writer.pos = .storeSeq ∧ t.writer.seq = t.reader.expect ∧ t.reader.InTake)

instance (t : Threads) (l : ThreadStep) : Decidable (t.Undisturbed l) := by
  unfold Undisturbed
  infer_instance

/-- The last pop has returned a frame, and no push of the expected number carried it. -/
def Torn (t : Threads) : Prop :=
  ∃ data timestamp, t.reader.pos = .idle ∧ t.reader.outcome = some (.frame data timestamp) ∧
    (t.reader.expect, ⟨timestamp, data⟩) ∉ t.pushes

end Threads

end OnlineJam
