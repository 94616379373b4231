import OnlineJam.Audio.JitterSpec
import OnlineJam.Lib.Run
import OnlineJam.Proofs.SeqProofs

/-!
# Proofs: the jitter buffer refines its history

`Agrees` ties the ring to the history of operations: the written slots are exactly the frames of the
positions from the read position on, each of which lies in a window of `ringSlots` positions, so that
no two of them share a slot.
-/

namespace OnlineJam

open OnlineJam.Lib

/-! ## Histories -/

theorem readPos_append_push (h : List JitterOp) (p : Int) (f : Frame) :
    readPos (h ++ [.push p f]) = some ((readPos h).getD p) := by
  induction h with
  | nil => simp [readPos]
  | cons op h ih =>
    cases op with
    | push q g => simp [readPos, JitterOp.isRead]
    | pop => exact ih
    | skip => exact ih

theorem readPos_append_read (h : List JitterOp) (op : JitterOp) (hop : op.isRead = true) :
    readPos (h ++ [op]) = (readPos h).map (· + 1) := by
  induction h with
  | nil => cases op <;> first | exact absurd hop Bool.false_ne_true | rfl
  | cons op' h ih =>
    cases op' with
    | push q g =>
      simp only [List.cons_append, readPos, List.countP_append, List.countP_singleton, hop,
        if_true, Option.map_some, Nat.cast_add, Nat.cast_one, Int.add_assoc]
    | pop => exact ih
    | skip => exact ih

theorem firstFrame_append_push (h : List JitterOp) (p q : Int) (f : Frame) :
    firstFrame (h ++ [.push p f]) q = (firstFrame h q).or (if p = q then some f else none) := by
  rw [firstFrame, List.findSome?_append]
  congr 1
  simp only [List.findSome?_cons, List.findSome?_nil]
  split <;> simp_all

theorem firstFrame_append_read (h : List JitterOp) (q : Int) {op : JitterOp}
    (hop : op.isRead = true) : firstFrame (h ++ [op]) q = firstFrame h q := by
  rw [firstFrame, List.findSome?_append]
  cases op <;> first | exact absurd hop Bool.false_ne_true | simp [firstFrame]

theorem InWindow.init {h : List JitterOp} {op : JitterOp} (hw : InWindow (h ++ [op])) :
    InWindow h := by
  intro h₁ p f h₂ he
  exact hw h₁ p f (h₂ ++ [op]) (by rw [he]; simp)

theorem InWindow.last {h : List JitterOp} {p : Int} {f : Frame} (hw : InWindow (h ++ [.push p f])) :
    f.payload.length ≤ maxFrameBytes ∧
      ∀ next, readPos h = some next → next - 32767 ≤ p ∧ p ≤ next + 63 :=
  hw h p f [] rfl

theorem InWindow.nil : InWindow [] := by
  intro h₁ p f h₂ he
  simp at he

theorem InWindow.append_read {h : List JitterOp} {op : JitterOp} (hop : op.isRead = true)
    (hw : InWindow h) : InWindow (h ++ [op]) := by
  intro h₁ p f h₂ he
  rcases Lib.split_append_singleton he with ⟨-, -, rfl⟩ | ⟨h₂, -, he⟩
  · exact absurd hop Bool.false_ne_true
  · exact hw h₁ p f h₂ he

theorem InWindow.append_push {h : List JitterOp} {p : Int} {f : Frame} (hw : InWindow h)
    (hlen : f.payload.length ≤ maxFrameBytes)
    (hwin : ∀ next, readPos h = some next → next - 32767 ≤ p ∧ p ≤ next + 63) :
    InWindow (h ++ [.push p f]) := by
  intro h₁ q g h₂ he
  rcases Lib.split_append_singleton he with ⟨-, rfl, hop⟩ | ⟨h₂, -, he⟩
  · cases hop
    exact ⟨hlen, hwin⟩
  · exact hw h₁ q g h₂ he

theorem StoredAt.append_iff (h : List JitterOp) (op : JitterOp) (q : Int) :
    StoredAt (h ++ [op]) q ↔ StoredAt h q ∨
      ∃ f, op = .push q f ∧ ∀ next, readPos h = some next → next ≤ q := by
  constructor
  · rintro ⟨h₁, f, h₂, he, hn⟩
    rcases Lib.split_append_singleton he with ⟨-, rfl, hop⟩ | ⟨h₂, -, he⟩
    · exact Or.inr ⟨f, hop, hn⟩
    · exact Or.inl ⟨h₁, f, h₂, he, hn⟩
  · rintro (⟨h₁, f, h₂, rfl, hn⟩ | ⟨f, rfl, hn⟩)
    · exact ⟨h₁, f, h₂ ++ [op], by simp, hn⟩
    · exact ⟨h, f, [], rfl, hn⟩

theorem StoredAt.append_read_iff (h : List JitterOp) {op : JitterOp} (hop : op.isRead = true)
    (q : Int) : StoredAt (h ++ [op]) q ↔ StoredAt h q := by
  rw [StoredAt.append_iff, or_iff_left]
  rintro ⟨f, rfl, -⟩
  exact absurd hop Bool.false_ne_true

theorem runJitter_append (h : List JitterOp) (op : JitterOp) :
    runJitter (h ++ [op]) = op.exec (runJitter h) := by
  simp [runJitter]

/-! ## Slots -/

/-- The slot holds this frame under the number of position `p`. -/
structure Slot.Holds (s : Slot) (p : Int) (f : Frame) : Prop where
  written : s.state = .written
  seq : s.seq = lowSeq p
  timestamp : s.timestamp = f.timestamp
  len : s.len.toNat = f.payload.length
  payload : s.payload.take f.payload.length = f.payload

theorem Slot.has_iff (s : Slot) (seq : UInt16) : s.has seq = true ↔ s.state = .written ∧ s.seq = seq := by
  simp [Slot.has]

theorem Slot.Holds.has {s : Slot} {p : Int} {f : Frame} (h : s.Holds p f) : s.has (lowSeq p) = true :=
  (s.has_iff _).mpr ⟨h.written, h.seq⟩

/-! ## The invariant -/

/-- The slots hold the frames of the positions from `next` on, and nothing else. -/
structure SlotsAgree (slots : Fin ringSlots → Slot) (h : List JitterOp) (next : Int) : Prop where
  /-- A frame not yet consumed is within the window and in its slot. -/
  held : ∀ p f, next ≤ p → firstFrame h p = some f →
    p < next + 64 ∧ (slots (slotOf (lowSeq p))).Holds p f
  /-- A written slot belongs to such a frame. -/
  owned : ∀ i, (slots i).state = .written →
    ∃ p f, next ≤ p ∧ slotOf (lowSeq p) = i ∧ firstFrame h p = some f

/-- The buffer stands where the history says. -/
def Agrees (jb : JitterBuffer) (h : List JitterOp) : Prop :=
  match readPos h with
  | none => jb.started = false ∧ (∀ i, (jb.slots i).state ≠ .written) ∧ ∀ p, firstFrame h p = none
  | some next => jb.started = true ∧ jb.nextSeq = lowSeq next ∧ SlotsAgree jb.slots h next

/-- The slot of a position in the window is taken exactly when a frame was pushed for it. -/
theorem SlotsAgree.has_iff {slots : Fin ringSlots → Slot} {h : List JitterOp} {next p : Int}
    (ha : SlotsAgree slots h next) (hlo : next ≤ p) (hhi : p < next + 64) :
    (slots (slotOf (lowSeq p))).has (lowSeq p) = (firstFrame h p).isSome := by
  rw [Bool.eq_iff_iff]
  refine ⟨fun hh => ?_, fun hf => ?_⟩
  · obtain ⟨q, f, hq, hqs, hqf⟩ := ha.owned _ ((Slot.has_iff _ _).mp hh).1
    have hqw := (ha.held q f hq hqf).1
    obtain rfl := slotOf_inj (by omega) (by omega) hqs
    rw [hqf]
    rfl
  · obtain ⟨f, hf⟩ := Option.isSome_iff_exists.mp hf
    exact (ha.held p f hlo hf).2.has

/-- Without a frame for it, the slot of a position in the window is free. -/
theorem SlotsAgree.not_written {slots : Fin ringSlots → Slot} {h : List JitterOp} {next p : Int}
    (ha : SlotsAgree slots h next) (hlo : next ≤ p) (hhi : p < next + 64)
    (hf : firstFrame h p = none) : (slots (slotOf (lowSeq p))).state ≠ .written := by
  intro hw
  obtain ⟨q, f, hq, hqs, hqf⟩ := ha.owned _ hw
  have hqw := (ha.held q f hq hqf).1
  obtain rfl := slotOf_inj (by omega) (by omega) hqs
  rw [hf] at hqf
  cases hqf

/-- Only the slot at the read position may be emptied when the read position advances. -/
theorem SlotsAgree.advance {slots slots' : Fin ringSlots → Slot} {h : List JitterOp} {next : Int}
    {op : JitterOp} (hop : op.isRead = true) (ha : SlotsAgree slots h next)
    (hkeep : ∀ i, i ≠ slotOf (lowSeq next) → slots' i = slots i)
    (hfree : (slots' (slotOf (lowSeq next))).state ≠ .written) :
    SlotsAgree slots' (h ++ [op]) (next + 1) where
  held := by
    intro p f hp hf
    rw [firstFrame_append_read h p hop] at hf
    obtain ⟨hw, hh⟩ := ha.held p f (by omega) hf
    have hne : slotOf (lowSeq p) ≠ slotOf (lowSeq next) := fun he => by
      have := slotOf_inj (by omega) (by omega) he
      omega
    exact ⟨by omega, by rw [hkeep _ hne]; exact hh⟩
  owned := by
    intro i hi
    have hne : i ≠ slotOf (lowSeq next) := fun he => hfree (he ▸ hi)
    rw [hkeep i hne] at hi
    obtain ⟨p, f, hp, hs, hf⟩ := ha.owned i hi
    have hpn : p ≠ next := fun he => hne (he ▸ hs.symm)
    exact ⟨p, f, by omega, hs, by rw [firstFrame_append_read h p hop, hf]⟩

/-- A push for a position that is already held or has been passed changes nothing. -/
theorem SlotsAgree.push_old {slots : Fin ringSlots → Slot} {h : List JitterOp} {next p : Int}
    {f : Frame} (ha : SlotsAgree slots h next) (hp : p < next ∨ (firstFrame h p).isSome) :
    SlotsAgree slots (h ++ [.push p f]) next where
  held := by
    intro q g hq hg
    rw [firstFrame_append_push] at hg
    cases hfq : firstFrame h q with
    | some g' =>
      rw [hfq, Option.some_or] at hg
      exact ha.held q g hq (hfq.trans hg)
    | none =>
      rw [hfq, Option.none_or] at hg
      split_ifs at hg with hpq
      subst hpq
      rcases hp with hp | hp
      · omega
      · rw [hfq] at hp; exact absurd hp Bool.false_ne_true
  owned := by
    intro i hi
    obtain ⟨q, g, hq, hs, hg⟩ := ha.owned i hi
    exact ⟨q, g, hq, hs, by rw [firstFrame_append_push, hg, Option.some_or]⟩

/-- A push into the window puts its frame in a free slot. -/
theorem SlotsAgree.push_new {slots : Fin ringSlots → Slot} {h : List JitterOp} {next p : Int}
    {f : Frame} {slot : Slot} (ha : SlotsAgree slots h next) (hlo : next ≤ p) (hhi : p < next + 64)
    (hf : firstFrame h p = none) (hslot : slot.Holds p f) :
    SlotsAgree (Function.update slots (slotOf (lowSeq p)) slot) (h ++ [.push p f]) next where
  held := by
    intro q g hq hg
    rw [firstFrame_append_push] at hg
    cases hfq : firstFrame h q with
    | some g' =>
      rw [hfq, Option.some_or] at hg
      obtain ⟨hw, hh⟩ := ha.held q g hq (hfq.trans hg)
      have hne : slotOf (lowSeq q) ≠ slotOf (lowSeq p) := fun he => by
        have := slotOf_inj (by omega) (by omega) he
        rw [this, hf] at hfq
        cases hfq
      exact ⟨hw, by rw [Function.update_of_ne hne]; exact hh⟩
    | none =>
      rw [hfq, Option.none_or] at hg
      split_ifs at hg with hpq
      subst hpq
      rw [Function.update_self]
      exact ⟨hhi, Option.some.inj hg ▸ hslot⟩
  owned := by
    intro i hi
    by_cases he : i = slotOf (lowSeq p)
    · exact ⟨p, f, hlo, he.symm, by rw [firstFrame_append_push, hf]; simp⟩
    · rw [Function.update_of_ne he] at hi
      obtain ⟨q, g, hq, hs, hg⟩ := ha.owned i hi
      exact ⟨q, g, hq, hs, by rw [firstFrame_append_push, hg, Option.some_or]⟩

/-! ## One operation -/

theorem readPos_none_firstFrame {h : List JitterOp} (hr : readPos h = none) (p : Int) :
    firstFrame h p = none := by
  induction h with
  | nil => rfl
  | cons op h ih =>
    cases op with
    | push q g => cases hr
    | pop => exact ih hr
    | skip => exact ih hr

theorem Agrees.of_none {jb : JitterBuffer} {h : List JitterOp} (ha : Agrees jb h)
    (hr : readPos h = none) : jb.started = false ∧ ∀ i, (jb.slots i).state ≠ .written := by
  rw [Agrees, hr] at ha
  exact ⟨ha.1, ha.2.1⟩

theorem Agrees.of_some {jb : JitterBuffer} {h : List JitterOp} {next : Int} (ha : Agrees jb h)
    (hr : readPos h = some next) :
    jb.started = true ∧ jb.nextSeq = lowSeq next ∧ SlotsAgree jb.slots h next := by
  rw [Agrees, hr] at ha
  exact ha

theorem Agrees.intro_some {jb : JitterBuffer} {h : List JitterOp} {next : Int}
    (hr : readPos h = some next) (hs : jb.started = true) (hn : jb.nextSeq = lowSeq next)
    (ha : SlotsAgree jb.slots h next) : Agrees jb h := by
  rw [Agrees, hr]
  exact ⟨hs, hn, ha⟩

/-- A read before the first push does nothing. -/
theorem Agrees.read_none {jb : JitterBuffer} {h : List JitterOp} {op : JitterOp}
    (hop : op.isRead = true) (ha : Agrees jb h) (hr : readPos h = none) : Agrees jb (h ++ [op]) := by
  have hr' : readPos (h ++ [op]) = none := by rw [readPos_append_read h op hop, hr]; rfl
  obtain ⟨hs, hw⟩ := ha.of_none hr
  rw [Agrees, hr']
  exact ⟨hs, hw, readPos_none_firstFrame hr'⟩

theorem Agrees.new : Agrees JitterBuffer.new [] :=
  ⟨rfl, fun _ => by simp [JitterBuffer.new, Slot.new], fun _ => rfl⟩

theorem JitterBuffer.take_of_holds {jb : JitterBuffer} {p : Int} {f : Frame}
    (hh : (jb.slots (slotOf (lowSeq p))).Holds p f) (hlen : f.payload.length ≤ maxFrameBytes) :
    jb.take (lowSeq p) = (.frame f.payload f.timestamp,
      { jb with slots := Function.update jb.slots (slotOf (lowSeq p))
                  { jb.slots (slotOf (lowSeq p)) with state := .empty } }) := by
  simp only [take, hh.has, not_true, if_false, hh.len, if_neg (Nat.not_lt.mpr hlen), hh.payload,
    hh.timestamp]

theorem JitterBuffer.take_of_not_written {jb : JitterBuffer} {seq : UInt16}
    (hw : (jb.slots (slotOf seq)).state ≠ .written) : jb.take seq = (.missing, jb) := by
  have hh : ¬ (jb.slots (slotOf seq)).has seq = true := fun h => hw ((Slot.has_iff _ _).mp h).1
  simp only [take, if_pos hh]

theorem firstFrame_length {h : List JitterOp} (hw : InWindow h) {p : Int} {f : Frame}
    (hf : firstFrame h p = some f) : f.payload.length ≤ maxFrameBytes := by
  obtain ⟨h₁, op, h₂, he, hop, -⟩ := List.findSome?_eq_some_iff.mp hf
  cases op with
  | push q g =>
    simp only at hop
    split_ifs at hop
    exact Option.some.inj hop ▸ (hw h₁ q g h₂ he).1
  | pop => cases hop
  | skip => cases hop

theorem JitterBuffer.popNext_of_take {jb jb' : JitterBuffer} {seq : UInt16} {o : PopOutcome}
    (hs : jb.started = true) (hn : jb.nextSeq = seq) (ht : jb.take seq = (o, jb')) :
    jb.popNext.1 = o ∧ jb.popNext.2.slots = jb'.slots ∧ jb.popNext.2.started = jb'.started ∧
      jb.popNext.2.nextSeq = seq + 1 := by
  simp [popNext, hs, hn, ht]

/-- A pop returns the first frame pushed for the read position, and consumes it. -/
theorem Agrees.pop {jb : JitterBuffer} {h : List JitterOp} (hw : InWindow h) (ha : Agrees jb h) :
    jb.popNext.1 = specPop h ∧ Agrees jb.popNext.2 (h ++ [.pop]) := by
  cases hr : readPos h with
  | none =>
    obtain ⟨hs, -⟩ := ha.of_none hr
    have hpop : jb.popNext = (.missing, jb) := if_pos (by rw [hs]; exact Bool.false_ne_true)
    rw [hpop, specPop, hr]
    exact ⟨rfl, ha.read_none rfl hr⟩
  | some next =>
    obtain ⟨hs, hn, hsl⟩ := ha.of_some hr
    have hr' : readPos (h ++ [.pop]) = some (next + 1) := by
      rw [readPos_append_read h .pop rfl, hr]
      rfl
    rw [specPop, hr, Option.bind_some]
    cases hf : firstFrame h next with
    | some f =>
      obtain ⟨-, hh⟩ := hsl.held next f le_rfl hf
      have ht := JitterBuffer.take_of_holds hh (firstFrame_length hw hf)
      obtain ⟨h1, h2, h3, h4⟩ := JitterBuffer.popNext_of_take hs hn ht
      refine ⟨h1, Agrees.intro_some hr' (h3.trans hs) ?_ (hsl.advance rfl ?_ ?_)⟩
      · rw [h4, lowSeq_add_one]
      · exact fun i hi => by rw [h2]; exact Function.update_of_ne hi _ _
      · rw [h2]; simp
    | none =>
      have hnw := hsl.not_written le_rfl (by omega) hf
      have ht := JitterBuffer.take_of_not_written hnw
      obtain ⟨h1, h2, h3, h4⟩ := JitterBuffer.popNext_of_take hs hn ht
      refine ⟨h1, Agrees.intro_some hr' (h3.trans hs) ?_ (hsl.advance rfl ?_ ?_)⟩
      · rw [h4, lowSeq_add_one]
      · exact fun i _ => by rw [h2]
      · rw [h2]; exact hnw

/-- A skip drops the frame at the read position, if there is one. -/
theorem Agrees.skip {jb : JitterBuffer} {h : List JitterOp} (ha : Agrees jb h) :
    jb.skipNext.1 = specSkip h ∧ Agrees jb.skipNext.2 (h ++ [.skip]) := by
  cases hr : readPos h with
  | none =>
    obtain ⟨hs, -⟩ := ha.of_none hr
    have hskip : jb.skipNext = (false, jb) := if_pos (by rw [hs]; exact Bool.false_ne_true)
    rw [hskip, specSkip, hr]
    exact ⟨rfl, ha.read_none rfl hr⟩
  | some next =>
    obtain ⟨hs, hn, hsl⟩ := ha.of_some hr
    have hr' : readPos (h ++ [.skip]) = some (next + 1) := by
      rw [readPos_append_read h .skip rfl, hr]
      rfl
    have hhas := hsl.has_iff le_rfl (by omega)
    rw [JitterBuffer.skipNext, if_neg (not_not.mpr hs), hn, specSkip, hr, Option.bind_some]
    refine ⟨hhas, Agrees.intro_some hr' hs (lowSeq_add_one next).symm (hsl.advance rfl ?_ ?_)⟩
    · intro i hi
      dsimp only
      split_ifs
      · exact Function.update_of_ne hi _ _
      · rfl
    · dsimp only
      split_ifs with hif
      · simp
      · exact hsl.not_written le_rfl (by omega) (by simpa [hhas] using hif)

/-- The slot a push writes. -/
theorem Slot.holds_stored {p : Int} {f : Frame} (rest : Bytes)
    (hlen : f.payload.length ≤ maxFrameBytes) :
    Slot.Holds { state := .written, seq := lowSeq p, timestamp := f.timestamp,
                 len := UInt16.ofNat f.payload.length, payload := f.payload ++ rest } p f where
  written := rfl
  seq := rfl
  timestamp := rfl
  len := UInt16.toNat_ofNat_of_lt' (Nat.lt_of_le_of_lt hlen (by decide))
  payload := List.take_left

/-- Storing into the window, whatever `push` did to the cursors before. -/
theorem SlotsAgree.store {jb : JitterBuffer} {h : List JitterOp} {next p : Int} {f : Frame}
    (ha : SlotsAgree jb.slots h next) (hlo : next ≤ p) (hhi : p < next + 64)
    (hlen : f.payload.length ≤ maxFrameBytes) :
    (jb.store (lowSeq p) f.timestamp f.payload).1 =
        (if (firstFrame h p).isSome then .duplicate else .stored) ∧
      SlotsAgree (jb.store (lowSeq p) f.timestamp f.payload).2.slots (h ++ [.push p f]) next := by
  have hhas := ha.has_iff hlo hhi
  cases hf : firstFrame h p with
  | some g =>
    rw [hf, Option.isSome_some] at hhas
    simp only [JitterBuffer.store, if_pos hhas]
    exact ⟨rfl, ha.push_old (Or.inr (by rw [hf]; rfl))⟩
  | none =>
    rw [hf, Option.isSome_none] at hhas
    simp only [JitterBuffer.store, hhas]
    exact ⟨rfl, ha.push_new hlo hhi hf (Slot.holds_stored _ hlen)⟩

@[simp] theorem JitterBuffer.store_started (jb : JitterBuffer) (s : UInt16) (t : UInt32) (d : Bytes) :
    (jb.store s t d).2.started = jb.started := by
  unfold store; dsimp only; split_ifs <;> rfl

@[simp] theorem JitterBuffer.store_nextSeq (jb : JitterBuffer) (s : UInt16) (t : UInt32) (d : Bytes) :
    (jb.store s t d).2.nextSeq = jb.nextSeq := by
  unfold store; dsimp only; split_ifs <;> rfl

@[simp] theorem JitterBuffer.store_newestSeq (jb : JitterBuffer) (s : UInt16) (t : UInt32)
    (d : Bytes) : (jb.store s t d).2.newestSeq = jb.newestSeq := by
  unfold store; dsimp only; split_ifs <;> rfl

theorem Agrees.store (jb : JitterBuffer) {h : List JitterOp} {next p : Int} {f : Frame}
    (hr : readPos (h ++ [.push p f]) = some next) (hs : jb.started = true)
    (hn : jb.nextSeq = lowSeq next) (ha : SlotsAgree jb.slots h next) (hlo : next ≤ p)
    (hhi : p < next + 64) (hlen : f.payload.length ≤ maxFrameBytes) :
    (jb.store (lowSeq p) f.timestamp f.payload).1 =
        (if (firstFrame h p).isSome then .duplicate else .stored) ∧
      Agrees (jb.store (lowSeq p) f.timestamp f.payload).2 (h ++ [.push p f]) := by
  obtain ⟨h1, h2⟩ := ha.store hlo hhi hlen
  exact ⟨h1, Agrees.intro_some hr (by rw [JitterBuffer.store_started, hs])
    (by rw [JitterBuffer.store_nextSeq, hn]) h2⟩

/-- A push is late, a duplicate or stored as the history says. -/
theorem Agrees.push {jb : JitterBuffer} {h : List JitterOp} {p : Int} {f : Frame}
    (hw : InWindow (h ++ [.push p f])) (ha : Agrees jb h) :
    (jb.push (lowSeq p) f.timestamp f.payload).1 = specPush h p ∧
      Agrees (jb.push (lowSeq p) f.timestamp f.payload).2 (h ++ [.push p f]) := by
  obtain ⟨hlen, hwin⟩ := hw.last
  have hr' := readPos_append_push h p f
  rw [JitterBuffer.push, if_neg (by omega)]
  cases hr : readPos h with
  | none =>
    obtain ⟨hs, hnw⟩ := ha.of_none hr
    have hff := readPos_none_firstFrame hr
    have hsl : SlotsAgree jb.slots h p :=
      { held := fun q g _ hg => by rw [hff q] at hg; cases hg
        owned := fun i hi => absurd hi (hnw i) }
    rw [hr, Option.getD_none] at hr'
    rw [if_pos (by rw [hs]; exact Bool.false_ne_true), specPush, hr]
    have hst := Agrees.store
      { jb with nextSeq := lowSeq p, newestSeq := lowSeq p, started := true } hr' rfl rfl
      hsl le_rfl (by omega) hlen
    rwa [hff p] at hst
  | some next =>
    obtain ⟨hs, hn, hsl⟩ := ha.of_some hr
    obtain ⟨hlo, hhi⟩ := hwin next hr
    rw [hr, Option.getD_some] at hr'
    rw [if_neg (not_not.mpr hs), specPush, hr]
    have hlate : newerThan jb.nextSeq (lowSeq p) = true ↔ p < next := by
      rw [hn]
      exact newerThan_lowSeq (by omega) (by omega)
    by_cases hp : p < next
    · rw [if_pos (hlate.mpr hp)]
      simp only [if_pos hp]
      exact ⟨trivial, Agrees.intro_some hr' hs hn (hsl.push_old (Or.inl hp))⟩
    · rw [if_neg (hlate.not.mpr hp)]
      simp only [if_neg hp]
      split
      · exact Agrees.store { jb with newestSeq := lowSeq p } hr' hs hn hsl (by omega)
          (by omega) hlen
      · exact Agrees.store jb hr' hs hn hsl (by omega) (by omega) hlen

/-- The run lemma: the buffer agrees with its history after any run within the window. -/
theorem agrees_runJitter {h : List JitterOp} (hw : InWindow h) : Agrees (runJitter h) h := by
  induction h using List.reverseRec with
  | nil => exact Agrees.new
  | append_singleton h op ih =>
    have ha := ih hw.init
    rw [runJitter_append]
    cases op with
    | push p f => exact (ha.push hw).2
    | pop => exact (ha.pop hw.init).2
    | skip => exact ha.skip.2

/-! ## Depth -/

/-- The newest stored position is known exactly while the read position is not too far past it. -/
def NewestAgrees (jb : JitterBuffer) (h : List JitterOp) : Prop :=
  ∀ next, readPos h = some next → ∃ newest, IsGreatest {p | StoredAt h p} newest ∧
    jb.newestSeq = lowSeq newest ∧ newest ≤ next + 63

theorem JitterBuffer.take_newestSeq (jb : JitterBuffer) (s : UInt16) :
    (jb.take s).2.newestSeq = jb.newestSeq := by
  unfold take; dsimp only; split_ifs <;> rfl

theorem JitterBuffer.popNext_newestSeq (jb : JitterBuffer) :
    jb.popNext.2.newestSeq = jb.newestSeq := by
  unfold popNext
  split_ifs
  · exact jb.take_newestSeq _
  · rfl

theorem JitterBuffer.skipNext_newestSeq (jb : JitterBuffer) :
    jb.skipNext.2.newestSeq = jb.newestSeq := by
  unfold skipNext; split_ifs <;> rfl

theorem NewestAgrees.read {jb jb' : JitterBuffer} {h : List JitterOp} {op : JitterOp}
    (hop : op.isRead = true) (hj : jb'.newestSeq = jb.newestSeq) (hn : NewestAgrees jb h) :
    NewestAgrees jb' (h ++ [op]) := by
  intro next hr
  rw [readPos_append_read h op hop] at hr
  obtain ⟨prev, hp, rfl⟩ := Option.map_eq_some_iff.mp hr
  obtain ⟨newest, hg, hs, hle⟩ := hn prev hp
  refine ⟨newest, ?_, hj.trans hs, by omega⟩
  simpa only [StoredAt.append_read_iff h hop] using hg

/-- The position of a push that is not late joins the stored ones. -/
theorem isGreatest_append_push {h : List JitterOp} {next newest p : Int} {f : Frame}
    (hr : readPos h = some next) (hg : IsGreatest {p | StoredAt h p} newest) :
    IsGreatest {q | StoredAt (h ++ [.push p f]) q} (if next ≤ p then max newest p else newest) := by
  have hiff : ∀ q, StoredAt (h ++ [.push p f]) q ↔ StoredAt h q ∨ (q = p ∧ next ≤ p) := by
    intro q
    rw [StoredAt.append_iff]
    refine or_congr Iff.rfl ⟨?_, ?_⟩
    · rintro ⟨g, he, hle⟩
      cases he
      exact ⟨rfl, hle next hr⟩
    · rintro ⟨rfl, hle⟩
      exact ⟨f, rfl, fun n hn => Option.some.inj (hr.symm.trans hn) ▸ hle⟩
  simp only [hiff]
  constructor
  · split_ifs with hp
    · rcases le_total newest p with hle | hle
      · rw [max_eq_right hle]
        exact Or.inr ⟨rfl, hp⟩
      · rw [max_eq_left hle]
        exact Or.inl hg.1
    · exact Or.inl hg.1
  · rintro q (hq | ⟨rfl, hq⟩)
    · have := hg.2 hq
      split_ifs <;> omega
    · rw [if_pos hq]
      exact le_max_right _ _

theorem not_storedAt_of_none {h : List JitterOp} (hr : readPos h = none) (q : Int) :
    ¬ StoredAt h q := by
  rintro ⟨h₁, f, h₂, rfl, -⟩
  have := readPos_none_firstFrame hr q
  rw [firstFrame, List.findSome?_eq_none_iff] at this
  simpa using this (.push q f) (by simp)

theorem NewestAgrees.push {jb : JitterBuffer} {h : List JitterOp} {p : Int} {f : Frame}
    (hw : InWindow (h ++ [.push p f])) (hfar : NeverFarAhead h) (ha : Agrees jb h)
    (hn : NewestAgrees jb h) :
    NewestAgrees (jb.push (lowSeq p) f.timestamp f.payload).2 (h ++ [.push p f]) := by
  obtain ⟨hlen, hwin⟩ := hw.last
  intro next' hr'
  rw [readPos_append_push] at hr'
  cases hr : readPos h with
  | none =>
    obtain ⟨hs, -⟩ := ha.of_none hr
    rw [hr, Option.getD_none] at hr'
    obtain rfl := Option.some.inj hr'
    refine ⟨p, ⟨(StoredAt.append_iff _ _ _).mpr (Or.inr ⟨f, rfl, by simp [hr]⟩), ?_⟩, ?_, by omega⟩
    · intro q hq
      rcases (StoredAt.append_iff _ _ _).mp hq with hq | ⟨g, he, -⟩
      · exact absurd hq (not_storedAt_of_none hr q)
      · cases he
        exact le_rfl
    · rw [JitterBuffer.push, if_neg (by omega), if_pos (by rw [hs]; exact Bool.false_ne_true),
        JitterBuffer.store_newestSeq]
  | some next =>
    obtain ⟨hs, hnext, -⟩ := ha.of_some hr
    obtain ⟨hlo, hhi⟩ := hwin next hr
    obtain ⟨newest, hg, hseq, hle⟩ := hn next hr
    have hnear := hfar h List.prefix_rfl next newest hr hg
    rw [hr, Option.getD_some] at hr'
    obtain rfl := Option.some.inj hr'
    refine ⟨_, isGreatest_append_push hr hg, ?_, by split_ifs <;> omega⟩
    have hlate : newerThan jb.nextSeq (lowSeq p) = true ↔ p < next := by
      rw [hnext]
      exact newerThan_lowSeq (by omega) (by omega)
    rw [JitterBuffer.push, if_neg (by omega), if_neg (not_not.mpr hs)]
    by_cases hp : p < next
    · rw [if_pos (hlate.mpr hp), if_neg (show ¬ next ≤ p by omega), ← hseq]
    · have hnew : newerThan (lowSeq p) jb.newestSeq = true ↔ newest < p := by
        rw [hseq]
        exact newerThan_lowSeq (by omega) (by omega)
      rw [if_neg (hlate.not.mpr hp), if_pos (show next ≤ p by omega)]
      by_cases hnp : newest < p
      · rw [if_pos (hnew.mpr hnp), JitterBuffer.store_newestSeq, max_eq_right (by omega)]
      · rw [if_neg (hnew.not.mpr hnp), JitterBuffer.store_newestSeq, max_eq_left (by omega), hseq]

theorem NeverFarAhead.init {h : List JitterOp} {op : JitterOp} (hf : NeverFarAhead (h ++ [op])) :
    NeverFarAhead h :=
  fun h₁ hp => hf h₁ (hp.trans (List.prefix_append _ _))

theorem newestAgrees_runJitter {h : List JitterOp} (hw : InWindow h) (hf : NeverFarAhead h) :
    NewestAgrees (runJitter h) h := by
  induction h using List.reverseRecOn with
  | nil => exact fun next hr => by cases hr
  | append_singleton h op ih =>
    have hn := ih hw.init hf.init
    rw [runJitter_append]
    cases op with
    | push p f => exact hn.push hw hf.init (agrees_runJitter hw.init)
    | pop => exact hn.read rfl (JitterBuffer.popNext_newestSeq _)
    | skip => exact hn.read rfl (JitterBuffer.skipNext_newestSeq _)

/-! ## Main result -/

/-- Over every run within the window, the buffer is the map from positions to frames that its history
describes. -/
theorem jitter_refines_history (h : List JitterOp) (hw : InWindow h) :
    (runJitter h).isStarted = (readPos h).isSome ∧
    (∀ next, readPos h = some next → (runJitter h).nextSeq = lowSeq next) ∧
    (readPos h = none → (runJitter h).popNext.2 = runJitter h ∧
      (runJitter h).skipNext.2 = runJitter h ∧ (runJitter h).depth = 0) ∧
    (runJitter h).popNext.1 = specPop h ∧
    (runJitter h).skipNext.1 = specSkip h ∧
    (∀ p f, InWindow (h ++ [.push p f]) →
      ((runJitter h).push (lowSeq p) f.timestamp f.payload).1 = specPush h p) ∧
    (NeverFarAhead h → ∀ next, readPos h = some next → ∃ newest,
      IsGreatest {p | StoredAt h p} newest ∧ (runJitter h).depth = newest - next + 1) := by
  have ha := agrees_runJitter hw
  refine ⟨?_, fun next hr => (ha.of_some hr).2.1, fun hr => ?_, (ha.pop hw).1, ha.skip.1,
    fun p f hwp => (ha.push hwp).1, fun hf next hr => ?_⟩
  · cases hr : readPos h with
    | none => exact (ha.of_none hr).1
    | some next => exact (ha.of_some hr).1
  · have hs : ¬ ¬ ¬ (runJitter h).started = true := by
      rw [(ha.of_none hr).1]
      exact not_not.mpr Bool.false_ne_true
    rw [JitterBuffer.popNext, JitterBuffer.skipNext, JitterBuffer.depth, if_pos (not_not.mp hs),
      if_pos (not_not.mp hs), if_pos (not_not.mp hs)]
    exact ⟨rfl, rfl, rfl⟩
  · obtain ⟨hs, hn, -⟩ := ha.of_some hr
    obtain ⟨newest, hg, hseq, hle⟩ := newestAgrees_runJitter hw hf next hr
    have hnear := hf h List.prefix_rfl next newest hr hg
    refine ⟨newest, hg, ?_⟩
    rw [JitterBuffer.depth, if_neg (not_not.mpr hs), hn, hseq, diff_lowSeq (by omega) (by omega)]

/-- A stream that starts just below the wrap, out of order and with a repeated frame. -/
theorem jitter_refines_history_wrap :
    (runJitter [.push 65534 ⟨1, [10]⟩, .push 65536 ⟨3, [30]⟩, .pop, .push 65535 ⟨2, [20]⟩,
      .push 65535 ⟨2, [21]⟩]).popNext.1 = .frame [20] 2 := by
  have hw : InWindow [.push 65534 ⟨1, [10]⟩, .push 65536 ⟨3, [30]⟩, .pop, .push 65535 ⟨2, [20]⟩,
      .push 65535 ⟨2, [21]⟩] := by
    have h1 : InWindow [.push 65534 ⟨1, [10]⟩] :=
      InWindow.nil.append_push (by decide) (fun next hr => by cases hr)
    have h2 : InWindow [.push 65534 ⟨1, [10]⟩, .push 65536 ⟨3, [30]⟩] :=
      h1.append_push (by decide) (fun next hr => by cases hr; decide)
    have h3 : InWindow [.push 65534 ⟨1, [10]⟩, .push 65536 ⟨3, [30]⟩, .pop] := h2.append_read rfl
    have h4 : InWindow [.push 65534 ⟨1, [10]⟩, .push 65536 ⟨3, [30]⟩, .pop, .push 65535 ⟨2, [20]⟩] :=
      h3.append_push (by decide) (fun next hr => by cases hr; decide)
    exact h4.append_push (by decide) (fun next hr => by cases hr; decide)
  exact (jitter_refines_history _ hw).2.2.2.1

end OnlineJam
