import OnlineJam.Proofs.JitterProofs
import OnlineJam.Proofs.ThreadProofs

/-!
# Proofs: one thread alone

A push or a pop that the other thread leaves alone is one step of the buffer: the loads and stores come
to what `JitterBuffer.push` and `JitterBuffer.popNext` do.
-/

namespace OnlineJam

open OnlineJam.Lib

namespace JitterBuffer

/-- Stores to one slot come to one store. -/
theorem storeSlot_storeSlot (jb : JitterBuffer) (seq : UInt16) (f g : Slot → Slot) :
    (jb.storeSlot seq f).storeSlot seq g = jb.storeSlot seq fun s => g (f s) := by
  simp only [storeSlot, Function.update_idem, Function.update_self]

theorem storeSlot_congr {jb : JitterBuffer} {seq : UInt16} {f g : Slot → Slot}
    (h : f (jb.slots (slotOf seq)) = g (jb.slots (slotOf seq))) :
    jb.storeSlot seq f = jb.storeSlot seq g := by
  rw [storeSlot, storeSlot, h]

end JitterBuffer

/-- One more byte is copied over the old ones. -/
theorem set_take_drop {α : Type} {xs ys : List α} {b : α} {k : Nat} (hk : k < xs.length)
    (hb : ys[k]? = some b) :
    (ys.take k ++ xs.drop k).set k b = ys.take (k + 1) ++ xs.drop (k + 1) := by
  obtain ⟨hlt, hb⟩ := List.getElem?_eq_some_iff.mp hb
  have htake : (ys.take k).length = k := List.length_take_of_le hlt.le
  rw [List.set_append_right k b htake.le, htake, Nat.sub_self, List.drop_eq_getElem_cons hk,
    List.set_cons_zero, List.take_succ_eq_append_getElem hlt, hb, List.append_assoc]
  rfl

/-! ## A push -/

namespace PushThread

/-- What the writer comes to with nobody else there. -/
def Goes (s s' : PushThread × JitterBuffer) : Prop :=
  Lib.Goes (fun s => s.1.step s.2) (fun s => s.1.pos = .idle) s s'

theorem Goes.refl {s : PushThread × JitterBuffer} : Goes s s := Lib.Goes.refl

theorem Goes.step {w : PushThread} {jb : JitterBuffer} {s : PushThread × JitterBuffer} (h : w.pos ≠ .idle)
    (hs : Goes (w.step jb) s) : Goes (w, jb) s := Lib.Goes.step h hs

/-- The writer in the middle of a push. -/
def within (seq : UInt16) (frame : Frame) (pos : PushPos) : PushThread :=
  { pos := pos, seq := seq, frame := frame, outcome := none }

variable {seq : UInt16} {frame : Frame} {jb : JitterBuffer} {s : PushThread × JitterBuffer}

/-- The bytes of the payload, one after the other, and the state. -/
theorem goes_payload (hlen : (jb.slots (slotOf seq)).payload.length = maxFrameBytes)
    (hfit : frame.payload.length ≤ maxFrameBytes) (f : Slot → Slot)
    (hs : Goes (within seq frame .countReceived, jb.storeSlot seq fun slot =>
      { f slot with
        state := .written
        payload := frame.payload ++ slot.payload.drop frame.payload.length }) s)
    (rest : Nat) : ∀ done, done + rest = frame.payload.length →
    Goes (within seq frame (.storePayload done), jb.storeSlot seq fun slot =>
      { f slot with payload := frame.payload.take done ++ slot.payload.drop done }) s := by
  induction rest with
  | zero =>
    intro done hdone
    refine .step PushPos.noConfusion ?_
    have hnone : frame.payload[done]? = none := List.getElem?_eq_none (by omega)
    rw [PushThread.step, within]
    dsimp only
    rw [hnone]
    dsimp only
    rw [JitterBuffer.storeSlot_storeSlot]
    have hall : done = frame.payload.length := by omega
    subst hall
    rw [List.take_length]
    exact hs
  | succ rest ih =>
    intro done hdone
    refine .step PushPos.noConfusion ?_
    have hlt : done < frame.payload.length := by omega
    have hb : frame.payload[done]? = some frame.payload[done] := List.getElem?_eq_getElem hlt
    rw [PushThread.step, within]
    dsimp only
    rw [hb]
    dsimp only
    rw [JitterBuffer.storeSlot_storeSlot]
    have hstore := ih (done + 1) (by omega)
    rw [JitterBuffer.storeSlot_congr (g := fun slot =>
      { f slot with payload := frame.payload.take (done + 1) ++ slot.payload.drop (done + 1) })
      (by
        dsimp only
        rw [set_take_drop (by rw [hlen]; omega) hb])]
    exact hstore

/-- The second half of a push, from the claim of the slot on. -/
theorem goes_claim (hlen : (jb.slots (slotOf seq)).payload.length = maxFrameBytes)
    (hfit : frame.payload.length ≤ maxFrameBytes)
    (hfree : (jb.slots (slotOf seq)).has seq ≠ true) :
    Goes (within seq frame .storeWriting, jb)
      ({ within seq frame .idle with outcome := some (jb.store seq frame.timestamp frame.payload).1 },
        (jb.store seq frame.timestamp frame.payload).2) := by
  refine .step PushPos.noConfusion (.step PushPos.noConfusion ?_)
  refine .step PushPos.noConfusion (.step PushPos.noConfusion ?_)
  simp only [PushThread.step, within, goto, JitterBuffer.storeSlot_storeSlot]
  refine goes_payload hlen hfit (fun slot =>
    { slot with
      state := .writing, seq := seq, timestamp := frame.timestamp
      len := UInt16.ofNat frame.payload.length }) ?_ frame.payload.length 0 (Nat.zero_add _)
  refine .step PushPos.noConfusion ?_
  rw [JitterBuffer.store, if_neg hfree]
  exact .refl

/-- From the look at the slot on. -/
theorem goes_store (hlen : (jb.slots (slotOf seq)).payload.length = maxFrameBytes)
    (hfit : frame.payload.length ≤ maxFrameBytes) :
    Goes (within seq frame .loadState, jb)
      ({ within seq frame .idle with outcome := some (jb.store seq frame.timestamp frame.payload).1 },
        (jb.store seq frame.timestamp frame.payload).2) := by
  by_cases hstate : (jb.slots (slotOf seq)).state = .written
  · refine .step PushPos.noConfusion ?_
    have hload : (within seq frame .loadState).step jb = (within seq frame .loadSeq, jb) := by
      simp [PushThread.step, within, goto, hstate]
    rw [hload]
    refine .step PushPos.noConfusion ?_
    by_cases hseq : (jb.slots (slotOf seq)).seq = seq
    · have hhas : (jb.slots (slotOf seq)).has seq = true := (Slot.has_iff _ _).mpr ⟨hstate, hseq⟩
      have hload : (within seq frame .loadSeq).step jb = (within seq frame .countDuplicate, jb) := by
        simp [PushThread.step, within, goto, hseq]
      rw [hload]
      refine .step PushPos.noConfusion ?_
      rw [JitterBuffer.store, if_pos hhas]
      exact .refl
    · have hfree : (jb.slots (slotOf seq)).has seq ≠ true := fun hh =>
        hseq ((Slot.has_iff _ _).mp hh).2
      have hload : (within seq frame .loadSeq).step jb = (within seq frame .storeWriting, jb) := by
        simp [PushThread.step, within, goto, hseq]
      rw [hload]
      exact goes_claim hlen hfit hfree
  · have hfree : (jb.slots (slotOf seq)).has seq ≠ true := fun hh =>
      hstate ((Slot.has_iff _ _).mp hh).1
    refine .step PushPos.noConfusion ?_
    have hload : (within seq frame .loadState).step jb = (within seq frame .storeWriting, jb) := by
      simp [PushThread.step, within, goto, hstate]
    rw [hload]
    exact goes_claim hlen hfit hfree

/-- A push that is left alone. -/
theorem goes_push (hlen : (jb.slots (slotOf seq)).payload.length = maxFrameBytes) :
    Goes (call seq frame, jb)
      ({ within seq frame .idle with outcome := some (jb.push seq frame.timestamp frame.payload).1 },
        (jb.push seq frame.timestamp frame.payload).2) := by
  rw [JitterBuffer.push, call]
  by_cases hfit : maxFrameBytes < frame.payload.length
  · rw [if_pos hfit, if_pos hfit]
    exact .refl
  · rw [if_neg hfit, if_neg hfit]
    rw [Nat.not_lt] at hfit
    refine .step PushPos.noConfusion ?_
    by_cases hs : ¬ jb.started = true
    · simp only [PushThread.step, goto, if_pos hs]
      refine .step PushPos.noConfusion (.step PushPos.noConfusion (.step PushPos.noConfusion ?_))
      exact goes_store hlen hfit
    · simp only [PushThread.step, goto, if_neg hs]
      refine .step PushPos.noConfusion ?_
      by_cases hlate : newerThan jb.nextSeq seq = true
      · simp only [PushThread.step, goto, if_pos hlate]
        exact .step PushPos.noConfusion .refl
      · simp only [PushThread.step, goto, if_neg hlate]
        refine .step PushPos.noConfusion ?_
        by_cases hnew : newerThan seq jb.newestSeq = true
        · simp only [PushThread.step, goto, if_pos hnew]
          exact .step PushPos.noConfusion (goes_store hlen hfit)
        · simp only [PushThread.step, goto, if_neg hnew]
          exact goes_store hlen hfit

end PushThread

/-! ## A pop -/

namespace PopThread

/-- What the reader comes to with nobody else there. -/
def Goes (s s' : PopThread × JitterBuffer) : Prop :=
  Lib.Goes (fun s => s.1.step s.2) (fun s => s.1.pos = .idle) s s'

theorem Goes.refl {s : PopThread × JitterBuffer} : Goes s s := Lib.Goes.refl

theorem Goes.step {r : PopThread} {jb : JitterBuffer} {s : PopThread × JitterBuffer} (h : r.pos ≠ .idle)
    (hs : Goes (r.step jb) s) : Goes (r, jb) s := Lib.Goes.step h hs

variable {r : PopThread} {jb : JitterBuffer}

/-- The copy of the payload. -/
theorem goes_payload (hpos : r.pos = .loadPayload) (xs : Bytes)
    (hxs : (jb.slots (slotOf r.expect)).payload = xs) (hfit : r.len ≤ xs.length) (rest : Nat) :
    ∀ done, done + rest = r.len → Goes ({ r with out := xs.take done }, jb)
      ({ r with out := xs.take r.len }, jb) := by
  induction rest with
  | zero =>
    intro done hdone
    rw [show done = r.len by omega]
    exact .refl
  | succ rest ih =>
    intro done hdone
    refine .step (by rw [hpos]; exact PopPos.noConfusion) ?_
    have hout : (xs.take done).length = done := List.length_take_of_le (by omega)
    have hstep : PopThread.step { r with out := xs.take done } jb =
        ({ r with out := xs.take (done + 1) }, jb) := by
      have hget : xs.take done ++ [xs.getD done 0] = xs.take (done + 1) := by
        rw [List.getD_eq_getElem?_getD, List.getElem?_eq_getElem (by omega), Option.getD_some,
          List.take_append_getElem]
      simp only [PopThread.step, hpos, hout, hxs, hget, if_pos (show done < r.len by omega)]
    rw [hstep]
    exact ih (done + 1) (by omega)

/-- From the length on, when the slot has the expected frame. -/
theorem goes_frame (hpos : r.pos = .loadLen)
    (hlen : (jb.slots (slotOf r.expect)).payload.length = maxFrameBytes)
    (hstate : (jb.slots (slotOf r.expect)).state = .written)
    (hseq : (jb.slots (slotOf r.expect)).seq = r.expect)
    (hfit : ¬ maxFrameBytes < (jb.slots (slotOf r.expect)).len.toNat) :
    ∃ r' : PopThread, Goes (r, jb) (r', jb.storeSlot r.expect fun s => { s with state := .empty }) ∧
      r'.pos = .storeNext (.frame ((jb.slots (slotOf r.expect)).payload.take
        (jb.slots (slotOf r.expect)).len.toNat) (jb.slots (slotOf r.expect)).timestamp) ∧
      r'.expect = r.expect := by
  obtain ⟨slot, hslot⟩ : ∃ slot, jb.slots (slotOf r.expect) = slot := ⟨_, rfl⟩
  rw [hslot] at hlen hstate hseq hfit ⊢
  have hread : r.step jb = ({ r with pos := .loadTimestamp, len := slot.len.toNat }, jb) := by
    simp [PopThread.step, hpos, hslot]
  have htime : PopThread.step { r with pos := .loadTimestamp, len := slot.len.toNat } jb =
      ({ r with
          pos := .loadPayload, len := slot.len.toNat, timestamp := slot.timestamp
          out := slot.payload.take 0 }, jb) := by
    simp only [PopThread.step, hslot]
    rw [if_neg hfit, List.take_zero]
  have hcopy := goes_payload (r := { r with
    pos := .loadPayload, len := slot.len.toNat, timestamp := slot.timestamp }) rfl slot.payload
    (congrArg Slot.payload hslot) (by rw [hlen]; exact Nat.not_lt.mp hfit) slot.len.toNat 0
    (Nat.zero_add _)
  have hout : ¬ (slot.payload.take slot.len.toNat).length < slot.len.toNat := by
    rw [List.length_take_of_le (by rw [hlen]; exact Nat.not_lt.mp hfit)]
    exact Nat.lt_irrefl _
  have hstate' : PopThread.step { r with
      pos := .loadPayload, len := slot.len.toNat, timestamp := slot.timestamp
      out := slot.payload.take slot.len.toNat } jb =
      ({ r with
          pos := .reloadSeq, len := slot.len.toNat, timestamp := slot.timestamp
          out := slot.payload.take slot.len.toNat }, jb) := by
    simp only [PopThread.step, goto, hslot]
    rw [if_neg hout, if_neg (not_not.mpr hstate)]
  have hseq' : PopThread.step { r with
      pos := .reloadSeq, len := slot.len.toNat, timestamp := slot.timestamp
      out := slot.payload.take slot.len.toNat } jb =
      ({ r with
          pos := .storeEmpty, len := slot.len.toNat, timestamp := slot.timestamp
          out := slot.payload.take slot.len.toNat }, jb) := by
    simp only [PopThread.step, goto, hslot]
    rw [if_neg (not_not.mpr hseq)]
  refine ⟨{ r with
    pos := .storeNext (.frame (slot.payload.take slot.len.toNat) slot.timestamp)
    len := slot.len.toNat, timestamp := slot.timestamp
    out := slot.payload.take slot.len.toNat }, ?_, rfl, rfl⟩
  refine .step (by rw [hpos]; exact PopPos.noConfusion) ?_
  rw [hread]
  refine .step PopPos.noConfusion ?_
  rw [htime]
  refine Lib.Goes.trans hcopy (.step PopPos.noConfusion ?_)
  rw [hstate']
  refine .step PopPos.noConfusion ?_
  rw [hseq']
  exact .step PopPos.noConfusion .refl

/-- The frame is taken, or there is none. -/
theorem goes_take (hpos : r.pos = .loadState)
    (hlen : (jb.slots (slotOf r.expect)).payload.length = maxFrameBytes) :
    ∃ r' : PopThread, Goes (r, jb) (r', (jb.take r.expect).2) ∧
      r'.pos = .storeNext (jb.take r.expect).1 ∧ r'.expect = r.expect := by
  have hne : r.pos ≠ .idle := by rw [hpos]; exact PopPos.noConfusion
  rw [JitterBuffer.take]
  by_cases hstate : (jb.slots (slotOf r.expect)).state = .written
  · have h1 : r.step jb = (r.goto .loadSeq, jb) := by
      simp [PopThread.step, hpos, goto, hstate]
    by_cases hseq : (jb.slots (slotOf r.expect)).seq = r.expect
    · have hhas : ¬ ¬ (jb.slots (slotOf r.expect)).has r.expect = true :=
        not_not.mpr ((Slot.has_iff _ _).mpr ⟨hstate, hseq⟩)
      have h2 : (r.goto .loadSeq).step jb = (r.goto .loadLen, jb) := by
        simp [PopThread.step, goto, hseq]
      have hfound : ∀ s, Goes (r.goto .loadLen, jb) s → Goes (r, jb) s := fun s hs => by
        refine .step hne ?_
        rw [h1]
        refine .step PopPos.noConfusion ?_
        rw [h2]
        exact hs
      rw [if_neg hhas]
      by_cases hbig : maxFrameBytes < (jb.slots (slotOf r.expect)).len.toNat
      · rw [if_pos hbig]
        refine ⟨{ r with
          pos := .storeNext .missing, len := (jb.slots (slotOf r.expect)).len.toNat
          timestamp := (jb.slots (slotOf r.expect)).timestamp, out := [] },
          hfound _ (.step PopPos.noConfusion (.step PopPos.noConfusion ?_)), rfl, rfl⟩
        have h3 : PopThread.step { r with
            pos := .loadTimestamp, len := (jb.slots (slotOf r.expect)).len.toNat } jb =
            ({ r with
                pos := .storeNext .missing, len := (jb.slots (slotOf r.expect)).len.toNat
                timestamp := (jb.slots (slotOf r.expect)).timestamp, out := [] }, jb) := by
          simp only [PopThread.step]
          rw [if_pos hbig]
        show Goes (PopThread.step _ jb) _
        rw [← h3]
        exact .refl
      · rw [if_neg hbig]
        obtain ⟨r', hgoes, hr⟩ := goes_frame (r := r.goto .loadLen) rfl hlen hstate hseq hbig
        exact ⟨r', hfound _ hgoes, hr⟩
    · have hhas : ¬ (jb.slots (slotOf r.expect)).has r.expect = true := fun hh =>
        hseq ((Slot.has_iff _ _).mp hh).2
      have h2 : (r.goto .loadSeq).step jb = (r.goto (.storeNext .missing), jb) := by
        simp [PopThread.step, goto, hseq]
      rw [if_pos hhas]
      refine ⟨r.goto (.storeNext .missing), .step hne ?_, rfl, rfl⟩
      rw [h1]
      refine .step PopPos.noConfusion ?_
      rw [h2]
      exact .refl
  · have hhas : ¬ (jb.slots (slotOf r.expect)).has r.expect = true := fun hh =>
      hstate ((Slot.has_iff _ _).mp hh).1
    have h1 : r.step jb = (r.goto (.storeNext .missing), jb) := by
      simp [PopThread.step, hpos, goto, hstate]
    rw [if_pos hhas]
    refine ⟨r.goto (.storeNext .missing), .step hne ?_, rfl, rfl⟩
    rw [h1]
    exact .refl

/-- A pop that is left alone. -/
theorem goes_pop (hlen : ∀ i, (jb.slots i).payload.length = maxFrameBytes) :
    ∃ r' : PopThread, Goes (r.call, jb) (r', jb.popNext.2) ∧ r'.pos = .idle ∧
      r'.outcome = some jb.popNext.1 := by
  by_cases hs : ¬ jb.started = true
  · refine ⟨{ r.call with pos := .idle, outcome := some .missing }, .step PopPos.noConfusion ?_, rfl, ?_⟩
    · rw [JitterBuffer.popNext, if_pos hs]
      simp only [PopThread.step, call, if_pos hs]
      exact .refl
    · rw [JitterBuffer.popNext, if_pos hs]
  · obtain ⟨r', hgoes, hpos, hexpect⟩ := goes_take (r := { r.call with
      pos := .loadState, expect := jb.nextSeq }) rfl (hlen _)
    dsimp only at hgoes hpos hexpect
    refine ⟨{ r' with pos := .idle, outcome := some (jb.take jb.nextSeq).1 }, ?_, rfl, ?_⟩
    · refine .step PopPos.noConfusion ?_
      simp only [PopThread.step, call, goto, if_neg hs]
      have hne : r'.pos ≠ .idle := by rw [hpos]; exact PopPos.noConfusion
      refine .step PopPos.noConfusion (Lib.Goes.trans hgoes (.step hne ?_))
      have hnext : r'.step (jb.take jb.nextSeq).2 =
          ({ r' with pos := .countOutcome (jb.take jb.nextSeq).1 },
            { (jb.take jb.nextSeq).2 with nextSeq := jb.nextSeq + 1 }) := by
        simp only [PopThread.step, hpos, goto, hexpect]
      rw [hnext]
      refine .step PopPos.noConfusion ?_
      simp only [PopThread.step, finish]
      rw [JitterBuffer.popNext, if_neg hs]
      exact .refl
    · rw [JitterBuffer.popNext, if_neg hs]

end PopThread

/-! ## Both -/

namespace Threads

/-- A push that is left alone does what it does in one step. -/
theorem push_alone {t : Threads} (ht : t.Sound) (hidle : t.writer.pos = .idle) (seq : UInt16)
    (frame : Frame) : ∃ k t', exec step t (.push seq frame :: List.replicate k .writer) = some t' ∧
      t'.buffer = (t.buffer.push seq frame.timestamp frame.payload).2 ∧ t'.writer.pos = .idle ∧
      t'.writer.outcome = some (t.buffer.push seq frame.timestamp frame.payload).1 := by
  have hgoes : PushThread.Goes (PushThread.call seq frame, t.buffer) _ :=
    PushThread.goes_push (ht.writer.lengths (slotOf seq))
  have hmove : ∀ s : PushThread × JitterBuffer, ¬ s.1.pos = .idle →
      step { t with writer := s.1, buffer := s.2, pushes := t.pushes ++ [(seq, frame)] } .writer =
        some { t with
          writer := (s.1.step s.2).1, buffer := (s.1.step s.2).2
          pushes := t.pushes ++ [(seq, frame)] } := fun s hs => if_neg hs
  obtain ⟨k, hk⟩ := Lib.Goes.exec hmove hgoes
  refine ⟨k, _, Eq.trans ?_ hk, rfl, rfl, rfl⟩
  rw [exec_cons, step, if_pos hidle]
  rfl

/-- So does a pop. -/
theorem pop_alone {t : Threads} (ht : t.Sound) (hidle : t.reader.pos = .idle) :
    ∃ k t', exec step t (.pop :: List.replicate k .reader) = some t' ∧
      t'.buffer = t.buffer.popNext.2 ∧ t'.reader.pos = .idle ∧
      t'.reader.outcome = some t.buffer.popNext.1 := by
  obtain ⟨r', hgoes, hpos, hout⟩ := PopThread.goes_pop (r := t.reader) ht.writer.lengths
  have hmove : ∀ s : PopThread × JitterBuffer, ¬ s.1.pos = .idle →
      step { t with reader := s.1, buffer := s.2 } .reader =
        some { t with reader := (s.1.step s.2).1, buffer := (s.1.step s.2).2 } :=
    fun s hs => if_neg hs
  obtain ⟨k, hk⟩ := Lib.Goes.exec hmove hgoes
  refine ⟨k, _, Eq.trans ?_ hk, rfl, hpos, hout⟩
  rw [exec_cons, step, if_pos hidle]
  rfl

end Threads

end OnlineJam
