import OnlineJam.Proofs.BufferProofs

/-!
# Proofs: what a push overwrites

Over every run a written slot holds a frame at or ahead of the read position, so whatever a push finds
in its slot under another number has not been played. A push that is stored replaces it.
-/

namespace OnlineJam

/-- The frame kept under a number. -/
def JitterBuffer.kept (jb : JitterBuffer) (seq : UInt16) : Option Frame :=
  let slot := jb.slots (slotOf seq)
  if slot.has seq then some ⟨slot.timestamp, slot.payload.take slot.len.toNat⟩ else none

/-- A frame is kept under this number, which is at or ahead of the read position. -/
def JitterBuffer.Unplayed (jb : JitterBuffer) (seq : UInt16) (f : Frame) : Prop :=
  jb.started = true ∧ newerThan jb.nextSeq seq = false ∧ jb.kept seq = some f

/-- A push of this frame destroys nothing that is still to be played. -/
structure JitterBuffer.Spares (jb : JitterBuffer) (seq : UInt16) (f : Frame) : Prop where
  keeps : ∀ q g, jb.Unplayed q g → (jb.push seq f.timestamp f.payload).2.Unplayed q g
  /-- A packet that aliases the slot of a frame that waits is rejected. -/
  rejects : ∀ q g, jb.Unplayed q g → slotOf q = slotOf seq → q ≠ seq →
    (jb.push seq f.timestamp f.payload).1 ≠ .stored
  /-- What is overwritten has been consumed or lies behind the read position. -/
  overwrites : ∀ i, (jb.push seq f.timestamp f.payload).2.slots i ≠ jb.slots i →
    (jb.slots i).state = .written → newerThan jb.nextSeq (jb.slots i).seq = true

theorem JitterBuffer.kept_eq_some {jb : JitterBuffer} {seq : UInt16} {f : Frame} :
    jb.kept seq = some f ↔ (jb.slots (slotOf seq)).has seq = true ∧
      (⟨(jb.slots (slotOf seq)).timestamp,
        (jb.slots (slotOf seq)).payload.take (jb.slots (slotOf seq)).len.toNat⟩ : Frame) = f := by
  unfold kept
  dsimp only
  by_cases hh : (jb.slots (slotOf seq)).has seq = true <;> simp [hh]

theorem JitterBuffer.store_stored_iff (jb : JitterBuffer) (seq : UInt16) (timestamp : UInt32)
    (payload : Bytes) :
    (jb.store seq timestamp payload).1 = .stored ↔ (jb.slots (slotOf seq)).has seq = false := by
  unfold store
  dsimp only
  by_cases hh : (jb.slots (slotOf seq)).has seq = true <;> simp [hh]

/-- When a push is stored. -/
theorem JitterBuffer.push_stored_iff (jb : JitterBuffer) (seq : UInt16) (timestamp : UInt32)
    (payload : Bytes) : (jb.push seq timestamp payload).1 = .stored ↔
      payload.length ≤ maxFrameBytes ∧ ¬ (jb.started = true ∧ newerThan jb.nextSeq seq = true) ∧
        (jb.slots (slotOf seq)).has seq = false := by
  unfold push
  by_cases hbig : maxFrameBytes < payload.length
  · simp [hbig, Nat.not_le.mpr hbig]
  rw [if_neg hbig]
  by_cases hs : jb.started = true
  · rw [if_neg (not_not.mpr hs)]
    by_cases hlate : newerThan jb.nextSeq seq = true
    · simp [hs, hlate]
    · rw [if_neg hlate]
      split <;> rw [store_stored_iff] <;> simp [hlate, Nat.le_of_not_lt hbig]
  · rw [if_pos hs, store_stored_iff]
    simp [hs, Nat.le_of_not_lt hbig]

/-! ## What waits -/

/-- A written slot is one of a frame that waits: nothing that is kept lies behind the read position. -/
theorem JitterBuffer.Placed.unplayed {jb : JitterBuffer} (hp : jb.Placed) {i : Fin ringSlots}
    (hi : (jb.slots i).state = .written) :
    slotOf (jb.slots i).seq = i ∧ ∃ f, jb.Unplayed (jb.slots i).seq f := by
  obtain ⟨hs, hslot, hnear⟩ := hp i hi
  have hh : (jb.slots (slotOf (jb.slots i).seq)).has (jb.slots i).seq = true := by
    rw [hslot]
    exact (Slot.has_iff _ _).mpr ⟨hi, rfl⟩
  have hahead : newerThan jb.nextSeq (jb.slots i).seq = false := by
    apply Bool.eq_false_of_not_eq_true
    rw [newerThan_iff_ahead]
    omega
  exact ⟨hslot, _, hs, hahead, kept_eq_some.mpr ⟨hh, rfl⟩⟩

/-- A slot that does not change keeps its frame. -/
theorem JitterBuffer.Unplayed.congr {jb jb' : JitterBuffer} {q : UInt16} {f : Frame}
    (h : jb.Unplayed q f) (hstarted : jb'.started = true) (hnext : jb'.nextSeq = jb.nextSeq)
    (hslot : jb'.slots (slotOf q) = jb.slots (slotOf q)) : jb'.Unplayed q f := by
  obtain ⟨-, hahead, hkept⟩ := h
  refine ⟨hstarted, by rw [hnext]; exact hahead, ?_⟩
  rw [kept_eq_some] at hkept ⊢
  rw [hslot]
  exact hkept

/-! ## One push -/

/-- A push that is refused leaves every slot as it was. -/
theorem JitterBuffer.Placed.spares_of_refused {jb : JitterBuffer} (hp : jb.Placed) {seq : UInt16}
    {f : Frame} (hne : (jb.push seq f.timestamp f.payload).1 ≠ .stored) : jb.Spares seq f := by
  have hr := jb.push_pushes seq f hp.idle
  cases hr with
  | stores slot hout => exact absurd hout hne
  | refuses _ hslots hstarted hnext =>
    refine ⟨fun q g hq => ?_, fun q g _ _ _ => hne, fun i hi _ => absurd (congrFun hslots i) hi⟩
    exact hq.congr (hstarted.trans hq.1) hnext (congrFun hslots _)

/-- A push that is stored spares what waits if no other number of its slot waits. -/
theorem JitterBuffer.Placed.spares_of_clear {jb : JitterBuffer} (hp : jb.Placed) {seq : UInt16}
    {f : Frame} (hclear : ∀ q g, jb.Unplayed q g → slotOf q = slotOf seq → q = seq) :
    jb.Spares seq f := by
  by_cases hout : (jb.push seq f.timestamp f.payload).1 = .stored
  · obtain ⟨-, -, hfree⟩ := (jb.push_stored_iff seq f.timestamp f.payload).mp hout
    -- Its slot is free: the frame of its own number would have made it a duplicate.
    have hempty : (jb.slots (slotOf seq)).state ≠ .written := by
      intro hw
      obtain ⟨hslot, g, hg⟩ := hp.unplayed hw
      rw [(Slot.has_iff _ _).mpr ⟨hw, hclear _ g hg hslot⟩] at hfree
      cases hfree
    have hother : ∀ q g, jb.Unplayed q g → slotOf q ≠ slotOf seq := by
      intro q g hq hslot
      obtain ⟨hh, -⟩ := kept_eq_some.mp hq.2.2
      rw [hslot] at hh
      exact hempty ((Slot.has_iff _ _).mp hh).1
    have hr := jb.push_pushes seq f hp.idle
    cases hr with
    | refuses hne => exact absurd hout hne
    | stores slot _ hslots _ _ hstarted _ hnext =>
      refine ⟨fun q g hq => ?_, fun q g hq hslot _ => absurd hslot (hother q g hq), fun i hi hw => ?_⟩
      · have hsame := Function.update_of_ne (hother q g hq) slot jb.slots
        exact hq.congr hstarted (hnext hq.1) ((congrFun hslots _).trans hsame)
      · by_cases he : i = slotOf seq
        · exact absurd (he ▸ hw) hempty
        · rw [hslots, Function.update_of_ne he] at hi
          exact absurd rfl hi
  · exact hp.spares_of_refused hout

/-! ## Main result -/

/-- Over every run a push destroys nothing that waits exactly when it is rejected for its size or its
place, or no frame waits whose number differs from the pushed one by a multiple of `ringSlots`. -/
theorem push_spares_iff (ops : List BufferOp) (seq : UInt16) (f : Frame) :
    (BufferLog.run ops).buffer.Spares seq f ↔
      maxFrameBytes < f.payload.length ∨
      ((BufferLog.run ops).buffer.started = true ∧
        newerThan (BufferLog.run ops).buffer.nextSeq seq = true) ∨
      ∀ q g, (BufferLog.run ops).buffer.Unplayed q g →
        q.toNat % ringSlots = seq.toNat % ringSlots → q = seq := by
  have hp := (BufferLog.sound_run ops).placed
  generalize (BufferLog.run ops).buffer = jb at hp ⊢
  have hslotOf : ∀ q : UInt16, slotOf q = slotOf seq ↔ q.toNat % ringSlots = seq.toNat % ringSlots :=
    fun q => Fin.ext_iff
  constructor
  · intro hspares
    by_contra hcon
    simp only [not_or, Nat.not_lt] at hcon
    obtain ⟨hlen, hlate, hother⟩ := hcon
    apply hother
    intro q g hq hmod
    by_contra hne
    have hslot := (hslotOf q).mpr hmod
    apply hspares.rejects q g hq hslot hne
    refine (jb.push_stored_iff seq f.timestamp f.payload).mpr ⟨hlen, hlate, ?_⟩
    -- The slot holds the other number.
    obtain ⟨hh, -⟩ := JitterBuffer.kept_eq_some.mp hq.2.2
    rw [hslot] at hh
    apply Bool.eq_false_of_not_eq_true
    intro hown
    exact hne (((Slot.has_iff _ _).mp hh).2.symm.trans ((Slot.has_iff _ _).mp hown).2)
  · rintro (hbig | hlate | hclear)
    · apply hp.spares_of_refused
      rw [Ne, jb.push_stored_iff]
      omega
    · apply hp.spares_of_refused
      rw [Ne, jb.push_stored_iff]
      exact fun h => h.2.1 hlate
    · exact hp.spares_of_clear fun q g hq hslot => hclear q g hq ((hslotOf q).mp hslot)

/-- Frames 5 and 70 wait when 6 arrives, in place and not older than anything that was played: 70 is
gone. -/
theorem push_overwrites_newer :
    (BufferLog.run [.push 5 50 [1], .push 70 70 [2]]).buffer.Unplayed 70 ⟨70, [2]⟩ ∧
    ((BufferLog.run [.push 5 50 [1], .push 70 70 [2]]).buffer.push 6 60 [3]).1 = .stored ∧
    ((BufferLog.run [.push 5 50 [1], .push 70 70 [2]]).buffer.push 6 60 [3]).2.kept 70 = none ∧
    ¬ ∀ (ops : List BufferOp) (seq : UInt16) (f : Frame), (BufferLog.run ops).buffer.Spares seq f := by
  have hwaits : (BufferLog.run [.push 5 50 [1], .push 70 70 [2]]).buffer.Unplayed 70 ⟨70, [2]⟩ := by
    refine ⟨rfl, by decide, by decide⟩
  have hstored : ((BufferLog.run [.push 5 50 [1], .push 70 70 [2]]).buffer.push 6 60 [3]).1 = .stored := by
    decide
  refine ⟨hwaits, hstored, by decide, fun hall => ?_⟩
  exact (hall _ 6 ⟨60, [3]⟩).rejects 70 _ hwaits (by decide) (by decide) hstored

end OnlineJam
