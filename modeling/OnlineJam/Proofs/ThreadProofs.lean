import OnlineJam.Audio.JitterThreads
import Mathlib.Data.List.Basic

/-!
# Proofs: what the reader copies while the writer writes

A written slot carries a push in full, and the writer marks a slot before it changes anything else in it.
So the reader's second look at the number finds every change but one: the slot was given the expected
number while the reader was looking.
-/

namespace OnlineJam

open OnlineJam.Lib

/-- The data of a slot is that of a frame. -/
structure Slot.Carries (slot : Slot) (f : Frame) : Prop where
  timestamp : slot.timestamp = f.timestamp
  len : slot.len.toNat = f.payload.length
  payload : slot.payload.take f.payload.length = f.payload

theorem Slot.Carries.of_eq {slot slot' : Slot} {f : Frame} (h : slot.Carries f)
    (ht : slot'.timestamp = slot.timestamp) (hl : slot'.len = slot.len)
    (hp : slot'.payload = slot.payload) : slot'.Carries f :=
  ⟨ht.trans h.timestamp, (congrArg UInt16.toNat hl).trans h.len, by rw [hp]; exact h.payload⟩

/-- A byte of the frame is where the reader looks for it. -/
theorem Slot.Carries.getD {slot : Slot} {f : Frame} (h : slot.Carries f) {k : Nat}
    (hk : k < f.payload.length) : f.payload.take k ++ [slot.payload.getD k 0] = f.payload.take (k + 1) := by
  have hlen := congrArg List.length h.payload
  rw [List.length_take] at hlen
  have hb : slot.payload.getD k 0 = f.payload[k] := by
    have hget : (slot.payload.take f.payload.length)[k]? = f.payload[k]? := by rw [h.payload]
    rw [List.getElem?_take_of_lt hk, List.getElem?_eq_getElem hk] at hget
    rw [List.getD_eq_getElem?_getD, hget, Option.getD_some]
  rw [hb, List.take_append_getElem]

/-- One more element of a list is copied. -/
theorem take_set_succ {α : Type} {xs ys : List α} {b : α} {k : Nat} (hk : k < xs.length)
    (hb : ys[k]? = some b) (h : xs.take k = ys.take k) : (xs.set k b).take (k + 1) = ys.take (k + 1) := by
  rw [List.take_add_one, List.take_add_one, hb, List.getElem?_set_self hk,
    List.take_set_of_le (Nat.le_refl k), h]

@[simp] theorem JitterBuffer.storeSlot_slots (jb : JitterBuffer) (seq : UInt16) (f : Slot → Slot) :
    (jb.storeSlot seq f).slots =
      Function.update jb.slots (slotOf seq) (f (jb.slots (slotOf seq))) := rfl

/-! ## The writer -/

namespace PushThread

/-- What the writer has done to the slot of its push. -/
def Written (w : PushThread) (slot : Slot) : Prop :=
  match w.pos with
  | .storeSeq => slot.state ≠ .written
  | .storeTimestamp => slot.state ≠ .written ∧ slot.seq = w.seq
  | .storeLen => slot.state ≠ .written ∧ slot.seq = w.seq ∧ slot.timestamp = w.frame.timestamp
  | .storePayload done =>
    slot.state ≠ .written ∧ slot.seq = w.seq ∧ slot.timestamp = w.frame.timestamp ∧
      slot.len.toNat = w.frame.payload.length ∧ done ≤ w.frame.payload.length ∧
      slot.payload.take done = w.frame.payload.take done
  | _ => True

/-- The writer is about to store data into the slot. -/
def Storing (w : PushThread) (i : Fin ringSlots) : Prop :=
  match w.pos with
  | .storeTimestamp | .storeLen | .storePayload _ => slotOf w.seq = i
  | _ => False

structure Sound (w : PushThread) (jb : JitterBuffer) (pushes : List (UInt16 × Frame)) : Prop where
  called : w.pos ≠ .idle → (w.seq, w.frame) ∈ pushes ∧ w.frame.payload.length ≤ maxFrameBytes
  progress : w.Written (jb.slots (slotOf w.seq))
  lengths : ∀ i, (jb.slots i).payload.length = maxFrameBytes
  whole : ∀ i, (jb.slots i).state = .written →
    ∃ f, ((jb.slots i).seq, f) ∈ pushes ∧ (jb.slots i).Carries f

variable {w : PushThread} {jb : JitterBuffer} {pushes : List (UInt16 × Frame)}

/-- A written slot is not one that the writer stores data into. -/
theorem Sound.not_storing (h : w.Sound jb pushes) {i : Fin ringSlots}
    (hw : (jb.slots i).state = .written) : ¬ w.Storing i := by
  intro hst
  have hp := h.progress
  unfold Storing at hst
  unfold Written at hp
  split at hst
  all_goals rename_i hpos
  all_goals first
    | exact hst
    | (rw [hpos, hst] at hp; exact hp.1 hw)

/-- Steps that leave the slots alone. -/
theorem Sound.moves {w' : PushThread} {jb' : JitterBuffer} (h : w.Sound jb pushes)
    (hslots : jb'.slots = jb.slots) (hseq : w'.seq = w.seq) (hframe : w'.frame = w.frame)
    (hne : w.pos ≠ .idle) (hw : ∀ slot, w'.Written slot) : w'.Sound jb' pushes where
  called := fun _ => by
    rw [hseq, hframe]
    exact h.called hne
  progress := hw _
  lengths := by
    rw [hslots]
    exact h.lengths
  whole := by
    rw [hslots]
    exact h.whole

/-- A store into the slot of the push. -/
theorem Sound.stores (h : w.Sound jb pushes) (hne : w.pos ≠ .idle) {f : Slot → Slot} {pos : PushPos}
    (hlen : (f (jb.slots (slotOf w.seq))).payload.length =
      (jb.slots (slotOf w.seq)).payload.length)
    (hprogress : (w.goto pos).Written (f (jb.slots (slotOf w.seq))))
    (hwhole : (f (jb.slots (slotOf w.seq))).state = .written →
      ∃ fr, ((f (jb.slots (slotOf w.seq))).seq, fr) ∈ pushes ∧
        (f (jb.slots (slotOf w.seq))).Carries fr) :
    (w.goto pos).Sound (jb.storeSlot w.seq f) pushes where
  called := fun _ => h.called hne
  progress := by
    show (w.goto pos).Written (Function.update jb.slots (slotOf w.seq) _ (slotOf w.seq))
    rw [Function.update_self]
    exact hprogress
  lengths := by
    intro i
    rw [JitterBuffer.storeSlot_slots]
    by_cases hi : i = slotOf w.seq
    · rw [hi, Function.update_self, hlen]
      exact h.lengths _
    · rw [Function.update_of_ne hi]
      exact h.lengths i
  whole := by
    intro i
    rw [JitterBuffer.storeSlot_slots]
    by_cases hi : i = slotOf w.seq
    · rw [hi, Function.update_self]
      exact hwhole
    · rw [Function.update_of_ne hi]
      exact h.whole i

theorem Sound.step (h : w.Sound jb pushes) (hne : w.pos ≠ .idle) :
    (w.step jb).1.Sound (w.step jb).2 pushes := by
  have hmax : maxFrameBytes = 1024 := rfl
  obtain ⟨hmem, hfit⟩ := h.called hne
  have hp := h.progress
  rw [Written] at hp
  rw [PushThread.step]
  dsimp only
  split
  all_goals rename_i hpos
  all_goals rw [hpos] at hp
  all_goals dsimp only at hp ⊢
  · exact absurd hpos hne
  · split <;> exact h.moves rfl rfl rfl hne fun _ => trivial
  · exact h.moves rfl rfl rfl hne fun _ => trivial
  · exact h.moves rfl rfl rfl hne fun _ => trivial
  · exact h.moves rfl rfl rfl hne fun _ => trivial
  · split <;> exact h.moves rfl rfl rfl hne fun _ => trivial
  · exact h.moves rfl rfl rfl hne fun _ => trivial
  · split <;> exact h.moves rfl rfl rfl hne fun _ => trivial
  · exact h.moves rfl rfl rfl hne fun _ => trivial
  · split <;> exact h.moves rfl rfl rfl hne fun _ => trivial
  · split <;> exact h.moves rfl rfl rfl hne fun _ => trivial
  · exact h.moves rfl rfl rfl hne fun _ => trivial
  · -- The slot is marked.
    refine h.stores hne rfl ?_ fun hs => ?_
    · exact (by decide : SlotState.writing ≠ .written)
    · cases hs
  · exact h.stores hne rfl ⟨hp, rfl⟩ fun hs => absurd hs hp
  · exact h.stores hne rfl ⟨hp.1, hp.2, rfl⟩ fun hs => absurd hs hp.1
  · refine h.stores hne rfl ⟨hp.1, hp.2.1, hp.2.2, ?_, Nat.zero_le _, rfl⟩ fun hs => absurd hs hp.1
    exact UInt16.toNat_ofNat_of_lt' (hfit.trans_lt (by decide))
  · rename_i done
    obtain ⟨h1, h2, h3, h4, h5, h6⟩ := hp
    split
    · rename_i b hb
      have hlt : done < w.frame.payload.length := (List.getElem?_eq_some_iff.mp hb).1
      dsimp only
      refine h.stores hne List.length_set ⟨h1, h2, h3, h4, hlt, ?_⟩ fun hs => absurd hs h1
      exact take_set_succ (by rw [h.lengths]; omega) hb h6
    · rename_i hb
      dsimp only
      have hdone := List.getElem?_eq_none_iff.mp hb
      have hall : done = w.frame.payload.length := Nat.le_antisymm h5 hdone
      refine h.stores hne rfl trivial fun _ => ⟨w.frame, ?_, h3, h4, ?_⟩
      · show ((jb.slots (slotOf w.seq)).seq, w.frame) ∈ pushes
        rw [h2]
        exact hmem
      · rw [hall, List.take_length] at h6
        exact h6
  · exact h.moves rfl rfl rfl hne fun _ => trivial

theorem step_seq (w : PushThread) (jb : JitterBuffer) :
    (w.step jb).1.seq = w.seq ∧ (w.step jb).1.frame = w.frame := by
  rw [PushThread.step]
  dsimp only
  split
  all_goals first
    | exact ⟨rfl, rfl⟩
    | (split <;> exact ⟨rfl, rfl⟩)

/-- The other slots are left alone. -/
theorem step_other (w : PushThread) (jb : JitterBuffer) {i : Fin ringSlots} (hi : i ≠ slotOf w.seq) :
    (w.step jb).2.slots i = jb.slots i := by
  rw [PushThread.step]
  dsimp only
  split
  all_goals first
    | rfl
    | exact Function.update_of_ne hi _ _
    | (split <;> exact Function.update_of_ne hi _ _)

theorem Storing.slot {w : PushThread} {i : Fin ringSlots} (h : w.Storing i) : slotOf w.seq = i := by
  unfold Storing at h
  split at h
  all_goals first
    | exact h
    | exact h.elim

/-- A call has not touched anything yet. -/
theorem call_spec (seq : UInt16) (frame : Frame) :
    (call seq frame).seq = seq ∧ (call seq frame).frame = frame ∧
    ((call seq frame).pos ≠ .idle → frame.payload.length ≤ maxFrameBytes) ∧
    (∀ slot, (call seq frame).Written slot) ∧ ∀ i, ¬ (call seq frame).Storing i := by
  rw [call]
  split
  · exact ⟨rfl, rfl, fun hne => absurd rfl hne, fun _ => trivial, fun _ => id⟩
  · rename_i hfit
    exact ⟨rfl, rfl, fun _ => Nat.not_lt.mp hfit, fun _ => trivial, fun _ => id⟩

/-- The reader only empties slots. -/
theorem Sound.reads {jb' : JitterBuffer} (h : w.Sound jb pushes)
    (hslots : ∀ i, jb'.slots i = jb.slots i ∨ jb'.slots i = { jb.slots i with state := .empty }) :
    w.Sound jb' pushes where
  called := h.called
  progress := by
    rcases hslots (slotOf w.seq) with heq | heq
    · rw [heq]
      exact h.progress
    · have hp := h.progress
      have hempty : SlotState.empty ≠ .written := by decide
      rw [heq]
      unfold Written at hp ⊢
      split at hp
      · exact hempty
      · exact ⟨hempty, hp.2⟩
      · exact ⟨hempty, hp.2⟩
      · exact ⟨hempty, hp.2⟩
      · trivial
  lengths := by
    intro i
    rcases hslots i with heq | heq
    · rw [heq]
      exact h.lengths i
    · rw [heq]
      exact h.lengths i
  whole := by
    intro i hi
    rcases hslots i with heq | heq
    · rw [heq] at hi ⊢
      exact h.whole i hi
    · rw [heq] at hi
      cases hi

/-- What a step of the writer does to a slot: nothing, the mark, the number, or some of the data. -/
theorem step_slot (w : PushThread) (jb : JitterBuffer) (i : Fin ringSlots) :
    ((w.step jb).2.slots i = jb.slots i ∧ ((w.step jb).1.Storing i → w.Storing i)) ∨
    ((w.step jb).2.slots i = { jb.slots i with state := .writing } ∧ ¬ (w.step jb).1.Storing i) ∨
    (w.pos = .storeSeq ∧ ((w.step jb).2.slots i).seq = w.seq) ∨
    (w.Storing i ∧ ((w.step jb).2.slots i).seq = (jb.slots i).seq) := by
  by_cases hi : i = slotOf w.seq
  · subst hi
    rw [PushThread.step]
    dsimp only
    split
    all_goals rename_i hpos
    all_goals try dsimp only
    · exact Or.inl ⟨rfl, id⟩
    · exact Or.inl ⟨rfl, by split <;> exact False.elim⟩
    · exact Or.inl ⟨rfl, False.elim⟩
    · exact Or.inl ⟨rfl, False.elim⟩
    · exact Or.inl ⟨rfl, False.elim⟩
    · exact Or.inl ⟨rfl, by split <;> exact False.elim⟩
    · exact Or.inl ⟨rfl, False.elim⟩
    · exact Or.inl ⟨rfl, by split <;> exact False.elim⟩
    · exact Or.inl ⟨rfl, False.elim⟩
    · exact Or.inl ⟨rfl, by split <;> exact False.elim⟩
    · exact Or.inl ⟨rfl, by split <;> exact False.elim⟩
    · exact Or.inl ⟨rfl, False.elim⟩
    · refine Or.inr (Or.inl ⟨?_, id⟩)
      rw [JitterBuffer.storeSlot_slots, Function.update_self]
    · refine Or.inr (Or.inr (Or.inl ⟨hpos, ?_⟩))
      rw [JitterBuffer.storeSlot_slots, Function.update_self]
    · refine Or.inr (Or.inr (Or.inr ⟨by rw [Storing, hpos], ?_⟩))
      rw [JitterBuffer.storeSlot_slots, Function.update_self]
    · refine Or.inr (Or.inr (Or.inr ⟨by rw [Storing, hpos], ?_⟩))
      rw [JitterBuffer.storeSlot_slots, Function.update_self]
    · refine Or.inr (Or.inr (Or.inr ⟨by rw [Storing, hpos], ?_⟩))
      split
      · dsimp only
        rw [JitterBuffer.storeSlot_slots, Function.update_self]
      · dsimp only
        rw [JitterBuffer.storeSlot_slots, Function.update_self]
    · exact Or.inl ⟨rfl, False.elim⟩
  · refine Or.inl ⟨step_other w jb hi, fun hst => ?_⟩
    have hslot := hst.slot
    rw [(step_seq w jb).1] at hslot
    exact absurd hslot.symm hi

end PushThread

/-! ## The reader -/

namespace PopThread

/-- What the reader has copied from the slot so far. -/
def Copied (r : PopThread) (f : Frame) : Prop :=
  match r.pos with
  | .loadTimestamp => r.len = f.payload.length
  | .loadPayload => r.len = f.payload.length ∧ r.timestamp = f.timestamp ∧
      r.out = f.payload.take r.out.length
  | .reloadSeq => r.timestamp = f.timestamp ∧ r.out = f.payload
  | _ => True

/-- What the pop returns or has returned, once that is settled. -/
def result (r : PopThread) : Option PopOutcome :=
  match r.pos with
  | .idle => r.outcome
  | .storeEmpty => some (.frame r.out r.timestamp)
  | .storeNext outcome | .countOutcome outcome => some outcome
  | _ => none

structure Sound (r : PopThread) (w : PushThread) (jb : JitterBuffer)
    (pushes : List (UInt16 × Frame)) : Prop where
  /-- As long as the slot has the expected number, its data is that of one push. -/
  window : r.InTake → (jb.slots (slotOf r.expect)).seq = r.expect →
    ¬ w.Storing (slotOf r.expect) ∧ ∃ f, (r.expect, f) ∈ pushes ∧
      (jb.slots (slotOf r.expect)).Carries f ∧ r.Copied f
  result : ∀ data timestamp, r.result = some (.frame data timestamp) →
    (r.expect, ⟨timestamp, data⟩) ∈ pushes

variable {r : PopThread} {w : PushThread} {jb : JitterBuffer} {pushes : List (UInt16 × Frame)}

theorem Sound.writer (h : r.Sound w jb pushes)
    (hq : ¬ (w.pos = .storeSeq ∧ w.seq = r.expect ∧ r.InTake)) :
    r.Sound (w.step jb).1 (w.step jb).2 pushes where
  window := by
    intro hin hseq
    rcases w.step_slot jb (slotOf r.expect) with ⟨heq, hst⟩ | ⟨heq, hno⟩ | ⟨hpos, hs⟩ | ⟨hst, hs⟩
    · rw [heq] at hseq ⊢
      obtain ⟨hnot, hf⟩ := h.window hin hseq
      exact ⟨fun hs => hnot (hst hs), hf⟩
    · rw [heq] at hseq ⊢
      obtain ⟨-, f, hmem, hcarries, hcopied⟩ := h.window hin hseq
      exact ⟨hno, f, hmem, hcarries.of_eq rfl rfl rfl, hcopied⟩
    · -- Only this step could bring the number back.
      exact absurd ⟨hpos, hs.symm.trans hseq, hin⟩ hq
    · exact absurd hst (h.window hin (hs.symm.trans hseq)).1
  result := h.result

theorem step_slots (r : PopThread) (jb : JitterBuffer) (i : Fin ringSlots) :
    (r.step jb).2.slots i = jb.slots i ∨
      (r.step jb).2.slots i = { jb.slots i with state := .empty } := by
  rw [step]
  dsimp only
  split
  all_goals first
    | exact Or.inl rfl
    | skip
  rw [JitterBuffer.storeSlot_slots]
  by_cases hi : i = slotOf r.expect
  · rw [hi, Function.update_self]
    exact Or.inr rfl
  · rw [Function.update_of_ne hi]
    exact Or.inl rfl

/-- Outside of the window nothing is asked of the reader. -/
theorem Sound.away {r' : PopThread} {jb' : JitterBuffer} (hin : ¬ r'.InTake)
    (hresult : ∀ data timestamp, r'.result ≠ some (.frame data timestamp)) :
    r'.Sound w jb' pushes :=
  ⟨fun h => absurd h hin, fun data timestamp h => absurd h (hresult data timestamp)⟩

/-- Inside of it there is no result yet. -/
theorem Sound.within {r' : PopThread} {jb' : JitterBuffer}
    (hwindow : (jb'.slots (slotOf r'.expect)).seq = r'.expect →
      ¬ w.Storing (slotOf r'.expect) ∧ ∃ f, (r'.expect, f) ∈ pushes ∧
        (jb'.slots (slotOf r'.expect)).Carries f ∧ r'.Copied f)
    (hresult : r'.result = none) : r'.Sound w jb' pushes :=
  ⟨fun _ => hwindow, fun data timestamp h => absurd h (by rw [hresult]; exact nofun)⟩

/-- Once there is a result, it stays. -/
theorem Sound.settled {r' : PopThread} {jb' : JitterBuffer} (h : r.Sound w jb pushes)
    (hin : ¬ r'.InTake) (hexpect : r'.expect = r.expect) (hresult : r'.result = r.result) :
    r'.Sound w jb' pushes :=
  ⟨fun hi => absurd hi hin, by rw [hexpect, hresult]; exact h.result⟩

theorem Sound.step (h : r.Sound w jb pushes) (hw : w.Sound jb pushes) :
    (r.step jb).1.Sound w (r.step jb).2 pushes := by
  have hwindow := h.window
  unfold InTake at hwindow
  rw [PopThread.step]
  dsimp only
  split
  all_goals rename_i hpos
  all_goals rw [hpos] at hwindow
  all_goals dsimp only
  · exact h
  · split
    · exact .away (by simp [InTake, finish]) (by simp [PopThread.result, finish])
    · exact .away (by simp [InTake, goto]) (by simp [PopThread.result, goto])
  · exact .away (by simp [InTake]) (by simp [PopThread.result])
  · -- The first look at the state.
    split
    · exact .away (by simp [InTake, goto]) (by simp [PopThread.result, goto])
    · rename_i hstate
      rw [ne_eq, not_not] at hstate
      refine .within (fun hseq => ⟨hw.not_storing hstate, ?_⟩) rfl
      obtain ⟨f, hmem, hcarries⟩ := hw.whole _ hstate
      have hmem' : (r.expect, f) ∈ pushes := hseq ▸ hmem
      exact ⟨f, hmem', hcarries, trivial⟩
  · split
    · exact .away (by simp [InTake, goto]) (by simp [PopThread.result, goto])
    · refine .within (fun hseq => ?_) rfl
      obtain ⟨hnot, f, hmem, hcarries, -⟩ := hwindow (by decide) hseq
      exact ⟨hnot, f, hmem, hcarries, trivial⟩
  · refine .within (fun hseq => ?_) rfl
    obtain ⟨hnot, f, hmem, hcarries, -⟩ := hwindow (by decide) hseq
    exact ⟨hnot, f, hmem, hcarries, hcarries.len⟩
  · split
    · exact .away (by simp [InTake]) (by simp [PopThread.result])
    · refine .within (fun hseq => ?_) rfl
      obtain ⟨hnot, f, hmem, hcarries, hcopied⟩ := hwindow (by decide) hseq
      rw [Copied, hpos] at hcopied
      exact ⟨hnot, f, hmem, hcarries, hcopied, hcarries.timestamp, rfl⟩
  · split
    · rename_i hlt
      refine .within (fun hseq => ?_) (by simp [PopThread.result, hpos])
      obtain ⟨hnot, f, hmem, hcarries, hcopied⟩ := hwindow (by decide) hseq
      rw [Copied, hpos] at hcopied
      obtain ⟨h1, h2, h3⟩ := hcopied
      refine ⟨hnot, f, hmem, hcarries, ?_⟩
      rw [Copied, hpos]
      refine ⟨h1, h2, ?_⟩
      dsimp only
      rw [List.length_append, List.length_singleton, ← hcarries.getD (h1 ▸ hlt), ← h3]
    · rename_i hdone
      split
      · exact .away (by simp [InTake, goto]) (by simp [PopThread.result, goto])
      · refine .within (fun hseq => ?_) rfl
        obtain ⟨hnot, f, hmem, hcarries, hcopied⟩ := hwindow (by decide) hseq
        rw [Copied, hpos] at hcopied
        obtain ⟨h1, h2, h3⟩ := hcopied
        refine ⟨hnot, f, hmem, hcarries, h2, ?_⟩
        rw [List.take_of_length_le (h1 ▸ Nat.not_lt.mp hdone)] at h3
        exact h3
  · split
    · exact .away (by simp [InTake, goto]) (by simp [PopThread.result, goto])
    · -- The second look at the number: what was copied is the frame.
      rename_i hseq
      rw [ne_eq, not_not] at hseq
      obtain ⟨-, f, hmem, -, hcopied⟩ := hwindow (by decide) hseq
      rw [Copied, hpos] at hcopied
      refine ⟨fun hin => absurd hin (by simp [InTake, goto]), fun data timestamp hr => ?_⟩
      cases hr
      show (r.expect, ⟨r.timestamp, r.out⟩) ∈ pushes
      rw [hcopied.1, hcopied.2]
      exact hmem
  · exact h.settled (by simp [InTake, goto]) rfl (by simp [PopThread.result, goto, hpos])
  · exact h.settled (by simp [InTake, goto]) rfl (by simp [PopThread.result, goto, hpos])
  · exact h.settled (by simp [InTake, finish]) rfl (by simp [PopThread.result, finish, hpos])

end PopThread

/-! ## Both threads -/

namespace Threads

structure Sound (t : Threads) : Prop where
  writer : t.writer.Sound t.buffer t.pushes
  reader : t.reader.Sound t.writer t.buffer t.pushes

theorem Sound.new : Sound new where
  writer :=
    { called := fun h => absurd rfl h
      progress := trivial
      lengths := fun _ => List.length_replicate
      whole := fun _ h => by cases h }
  reader := .away (by decide) nofun

theorem Sound.push {t : Threads} (h : t.Sound) (seq : UInt16) (frame : Frame) :
    Sound { t with
      writer := PushThread.call seq frame, pushes := t.pushes ++ [(seq, frame)] } := by
  obtain ⟨hseq, hframe, hfit, hwritten, hstoring⟩ := PushThread.call_spec seq frame
  exact
    { writer :=
        { called := fun hne => by
            rw [hseq, hframe]
            exact ⟨List.mem_append_right _ (List.mem_singleton_self _), hfit hne⟩
          progress := hwritten _
          lengths := h.writer.lengths
          whole := fun i hi => by
            obtain ⟨f, hmem, hf⟩ := h.writer.whole i hi
            exact ⟨f, List.mem_append_left _ hmem, hf⟩ }
      reader :=
        { window := fun hin hs => by
            obtain ⟨-, f, hmem, hf⟩ := h.reader.window hin hs
            exact ⟨hstoring _, f, List.mem_append_left _ hmem, hf⟩
          result := fun data timestamp hr =>
            List.mem_append_left _ (h.reader.result data timestamp hr) } }

theorem Sound.step {t t' : Threads} {l : ThreadStep} (h : t.Sound) (hq : t.Undisturbed l)
    (hstep : t.step l = some t') : t'.Sound := by
  cases l with
  | push seq frame =>
    rw [Threads.step] at hstep
    split at hstep
    · cases hstep
      exact h.push seq frame
    · cases hstep
  | pop =>
    rw [Threads.step] at hstep
    split at hstep
    · cases hstep
      exact ⟨h.writer, .away (by simp [PopThread.InTake, PopThread.call])
        (by simp [PopThread.result, PopThread.call])⟩
    · cases hstep
  | writer =>
    rw [Threads.step] at hstep
    split at hstep
    · cases hstep
    · cases hstep
      exact ⟨h.writer.step ‹_›, h.reader.writer fun hc => hq ⟨rfl, hc⟩⟩
  | reader =>
    rw [Threads.step] at hstep
    split at hstep
    · cases hstep
    · cases hstep
      exact ⟨h.writer.reads (t.reader.step_slots t.buffer), h.reader.step h.writer⟩

/-- The run lemma. -/
theorem sound_run {t : Threads} {ls : List ThreadStep} (h : Steps step Undisturbed new ls t) :
    t.Sound :=
  h.invariant .new fun _ _ _ _ _ hs hq hstep => hs.step hq hstep

/-- No pop returns a frame that no push of the expected number carried, in any interleaving in which the
writer never gives the slot that number under the reader's eyes. -/
theorem frames_whole {t : Threads} {ls : List ThreadStep} (h : Steps step Undisturbed new ls t) :
    ¬ t.Torn := by
  rintro ⟨data, timestamp, hpos, hr, hno⟩
  refine hno ((sound_run h).reader.result data timestamp ?_)
  rw [PopThread.result, hpos]
  exact hr

/-- The writer goes on to frame 64 while the reader copies frame 0, and comes too late for it. -/
theorem frames_whole_next : ∃ t ls, Steps step Undisturbed new ls t ∧
    t.reader.outcome = some (.frame [5, 6] 0) ∧ ¬ t.Torn := by
  have hrun : ∃ t, Steps step Undisturbed new
      ([.push 0 ⟨0, [5, 6]⟩] ++ List.replicate 13 .writer ++ [.pop] ++ List.replicate 8 .reader ++
        [.push 64 ⟨7680, [7]⟩] ++ List.replicate 6 .writer ++ List.replicate 5 .reader ++
        List.replicate 6 .writer) t ∧
      decide (t.reader.outcome = some (.frame [5, 6] 0)) = true :=
    Steps.of_test (fun _ _ => of_decide_eq_true)
      (by decide +kernel)
  obtain ⟨t, h, hr⟩ := hrun
  exact ⟨t, _, h, of_decide_eq_true hr, frames_whole h⟩

/-- Frame 65 is in the slot when the reader, expecting frame 1, finds it written; frame 1 arrives, and
the reader takes its number, the length, the time and the first byte of frame 65, and the second byte of
frame 1. -/
theorem frame_torn : ∃ t ls, exec step new ls = some t ∧ t.Torn := by
  have hrun : (exec step new
      ([.push 0 ⟨0, []⟩] ++ List.replicate 11 .writer ++ [.pop] ++ List.replicate 11 .reader ++
        [.push 65 ⟨65, [9, 9]⟩] ++ List.replicate 13 .writer ++
        [.pop] ++ List.replicate 3 .reader ++
        [.push 1 ⟨1, [7, 7]⟩] ++ List.replicate 7 .writer ++ List.replicate 4 .reader ++
        List.replicate 6 .writer ++ List.replicate 6 .reader)).any (fun t =>
      decide (t.reader.pos = .idle ∧ t.reader.outcome = some (.frame [9, 7] 65) ∧
        (t.reader.expect, ⟨65, [9, 7]⟩) ∉ t.pushes)) = true := by
    decide +kernel
  obtain ⟨t, ht, hr⟩ := (Option.any_eq_true _ _).mp hrun
  obtain ⟨hpos, hout, hno⟩ := of_decide_eq_true hr
  exact ⟨t, _, ht, [9, 7], 65, hpos, hout, hno⟩

end Threads

end OnlineJam
