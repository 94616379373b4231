import OnlineJam.Audio.BufferLog
import OnlineJam.Proofs.JitterProofs

/-!
# Proofs: the jitter buffer under any operations

Whatever is pushed, a written slot holds the frame of the most recent stored push of its number, lies at
most half the ring ahead of the read position, and has not been returned. An operation keeps this
because the read position only ever leaves a slot behind that it has emptied.
-/

namespace OnlineJam

/-! ## What one operation does -/

/-- What `push` can do with a frame of this number. -/
inductive JitterBuffer.Pushes (jb : JitterBuffer) (seq : UInt16) (f : Frame) :
    PushOutcome × JitterBuffer → Prop
  | refuses {r : PushOutcome × JitterBuffer} (hne : r.1 ≠ .stored) (hslots : r.2.slots = jb.slots)
      (hstarted : r.2.started = jb.started) (hnext : r.2.nextSeq = jb.nextSeq) : Pushes jb seq f r
  | stores {r : PushOutcome × JitterBuffer} (slot : Slot) (hout : r.1 = .stored)
      (hslots : r.2.slots = Function.update jb.slots (slotOf seq) slot)
      (hholds : slot.Holds seq.toNat f) (hlen : f.payload.length ≤ maxFrameBytes)
      (hstarted : r.2.started = true) (hnear : (seq - r.2.nextSeq).toNat ≤ 32768)
      (hnext : jb.started = true → r.2.nextSeq = jb.nextSeq) : Pushes jb seq f r

theorem JitterBuffer.store_pushes {jb jb₁ : JitterBuffer} {seq : UInt16} {f : Frame}
    (hlen : f.payload.length ≤ maxFrameBytes) (hslots : jb₁.slots = jb.slots)
    (hstarted : jb₁.started = true) (hnear : (seq - jb₁.nextSeq).toNat ≤ 32768)
    (hnext : jb.started = true → jb₁.nextSeq = jb.nextSeq)
    (hidle : jb.started = false → (jb.slots (slotOf seq)).has seq = false) :
    Pushes jb seq f (jb₁.store seq f.timestamp f.payload) := by
  by_cases hh : (jb₁.slots (slotOf seq)).has seq = true
  · have hs : jb.started = true := by
      by_contra hs
      rw [hslots, hidle (Bool.eq_false_of_not_eq_true hs)] at hh
      cases hh
    rw [store, if_pos hh]
    exact .refuses (by simp) hslots (hstarted.trans hs.symm) (hnext hs)
  · rw [store, if_neg hh]
    have hst := Slot.holds_stored (p := seq.toNat) ((jb₁.slots (slotOf seq)).payload.drop
      f.payload.length) hlen
    rw [lowSeq_natCast] at hst
    exact .stores _ rfl (by rw [hslots]) (hslots ▸ hst) hlen hstarted hnear hnext

/-- Before the first push no slot is written, so that push cannot find its frame there already. -/
theorem JitterBuffer.push_pushes (jb : JitterBuffer) (seq : UInt16) (f : Frame)
    (hidle : jb.started = false → ∀ i, (jb.slots i).state ≠ .written) :
    Pushes jb seq f (jb.push seq f.timestamp f.payload) := by
  have hfree : jb.started = false → (jb.slots (slotOf seq)).has seq = false := fun hs =>
    Bool.eq_false_of_not_eq_true fun hh => hidle hs _ ((Slot.has_iff _ _).mp hh).1
  rw [push]
  by_cases hbig : maxFrameBytes < f.payload.length
  · rw [if_pos hbig]
    exact .refuses (by simp) rfl rfl rfl
  have hlen := Nat.le_of_not_lt hbig
  rw [if_neg hbig]
  by_cases hs : jb.started = true
  · rw [if_neg (not_not.mpr hs)]
    split_ifs with hlate hnewest
    · exact .refuses (by simp) rfl rfl rfl
    all_goals
      rw [newerThan_iff_ahead] at hlate
      exact store_pushes hlen rfl hs (Nat.le_of_not_lt hlate) (fun _ => rfl) hfree
  · rw [if_pos hs]
    refine store_pushes hlen rfl rfl ?_ (fun h => absurd h hs) hfree
    rw [UInt16.sub_self]
    decide

/-- What a pop or a skip does: the read position advances, and a frame left in a slot was there before
and is not the one that was read. -/
structure JitterBuffer.Reads (jb jb' : JitterBuffer) : Prop where
  started : jb'.started = jb.started
  nextSeq : jb'.nextSeq = if jb.started then jb.nextSeq + 1 else jb.nextSeq
  left : ∀ i, (jb'.slots i).state = .written → jb'.slots i = jb.slots i ∧
    (jb.started = true → slotOf (jb.slots i).seq = i → (jb.slots i).seq ≠ jb.nextSeq)

theorem JitterBuffer.Reads.refl {jb : JitterBuffer} (hs : ¬ jb.started = true) : Reads jb jb where
  started := rfl
  nextSeq := (if_neg hs).symm
  left := fun _ _ => ⟨rfl, fun h => absurd h hs⟩

/-- The read position passes a slot that is empty or holds another number. -/
theorem JitterBuffer.Reads.pass {jb jb' : JitterBuffer} (hs : jb.started = true)
    (hstarted : jb'.started = jb.started) (hnext : jb'.nextSeq = jb.nextSeq + 1)
    (hslots : jb'.slots = jb.slots) (hh : ¬ (jb.slots (slotOf jb.nextSeq)).has jb.nextSeq = true) :
    Reads jb jb' where
  started := hstarted
  nextSeq := by rw [hnext, if_pos hs]
  left := by
    intro i hi
    rw [hslots] at hi ⊢
    refine ⟨rfl, fun _ hslot hseq => hh ?_⟩
    rw [hseq] at hslot
    rw [hslot]
    exact (Slot.has_iff _ _).mpr ⟨hi, hseq⟩

theorem JitterBuffer.Reads.consume {jb jb' : JitterBuffer} (hs : jb.started = true)
    (hstarted : jb'.started = jb.started) (hnext : jb'.nextSeq = jb.nextSeq + 1)
    (hslots : jb'.slots = Function.update jb.slots (slotOf jb.nextSeq)
      { jb.slots (slotOf jb.nextSeq) with state := .empty }) : Reads jb jb' where
  started := hstarted
  nextSeq := by rw [hnext, if_pos hs]
  left := by
    intro i hi
    rw [hslots] at hi ⊢
    by_cases he : i = slotOf jb.nextSeq
    · rw [he, Function.update_self] at hi
      cases hi
    · rw [Function.update_of_ne he]
      exact ⟨rfl, fun _ hslot hseq => he (by rw [← hslot, hseq])⟩

theorem JitterBuffer.skipNext_reads (jb : JitterBuffer) : Reads jb jb.skipNext.2 := by
  rw [skipNext]
  by_cases hs : jb.started = true
  · rw [if_neg (not_not.mpr hs)]
    by_cases hh : (jb.slots (slotOf jb.nextSeq)).has jb.nextSeq = true
    · exact .consume hs rfl rfl (if_pos hh)
    · exact .pass hs rfl rfl (if_neg hh) hh
  · rw [if_pos hs]
    exact .refl hs

theorem JitterBuffer.take_of_has {jb : JitterBuffer} {seq : UInt16}
    (hh : (jb.slots (slotOf seq)).has seq = true)
    (hlen : (jb.slots (slotOf seq)).len.toNat ≤ maxFrameBytes) :
    jb.take seq = (.frame ((jb.slots (slotOf seq)).payload.take (jb.slots (slotOf seq)).len.toNat)
        (jb.slots (slotOf seq)).timestamp,
      { jb with slots := Function.update jb.slots (slotOf seq)
                  { jb.slots (slotOf seq) with state := .empty } }) := by
  rw [take, if_neg (not_not.mpr hh), if_neg (Nat.not_lt.mpr hlen)]

/-- What `pop_next` does when the frame in the slot it reads fits. -/
theorem JitterBuffer.popNext_reads (jb : JitterBuffer)
    (hlen : (jb.slots (slotOf jb.nextSeq)).has jb.nextSeq = true →
      (jb.slots (slotOf jb.nextSeq)).len.toNat ≤ maxFrameBytes) : Reads jb jb.popNext.2 := by
  by_cases hs : jb.started = true
  · by_cases hh : (jb.slots (slotOf jb.nextSeq)).has jb.nextSeq = true
    · obtain ⟨-, h2, h3, h4⟩ := popNext_of_take hs rfl (take_of_has hh (hlen hh))
      exact .consume hs h3 h4 h2
    · obtain ⟨-, h2, h3, h4⟩ := popNext_of_take hs rfl (if_pos hh)
      exact .pass hs h3 h4 h2 hh
  · rw [popNext, if_pos hs]
    exact .refl hs

/-! ## Where frames lie -/

/-- A written slot is the one of its number, which lies at most half the ring ahead. -/
def JitterBuffer.Placed (jb : JitterBuffer) : Prop :=
  ∀ i, (jb.slots i).state = .written → jb.started = true ∧ slotOf (jb.slots i).seq = i ∧
    ((jb.slots i).seq - jb.nextSeq).toNat ≤ 32768

theorem JitterBuffer.Placed.idle {jb : JitterBuffer} (hp : jb.Placed) (hs : jb.started = false) :
    ∀ i, (jb.slots i).state ≠ .written := by
  intro i hi
  rw [(hp i hi).1] at hs
  cases hs

theorem JitterBuffer.Placed.push {jb : JitterBuffer} {seq : UInt16} {f : Frame}
    {r : PushOutcome × JitterBuffer} (hp : jb.Placed) (hr : Pushes jb seq f r) : r.2.Placed := by
  cases hr with
  | refuses hne hslots hstarted hnext =>
    intro i hi
    rw [hslots] at hi ⊢
    rw [hstarted, hnext]
    exact hp i hi
  | stores slot hout hslots hholds hlen hstarted hnear hnext =>
    intro i hi
    rw [hslots] at hi ⊢
    refine ⟨hstarted, ?_⟩
    by_cases he : i = slotOf seq
    · have hseq : slot.seq = seq := hholds.seq.trans (lowSeq_natCast seq)
      rw [he, Function.update_self, hseq]
      exact ⟨rfl, hnear⟩
    · rw [Function.update_of_ne he] at hi ⊢
      obtain ⟨hs, hslot, hle⟩ := hp i hi
      rw [hnext hs]
      exact ⟨hslot, hle⟩

theorem JitterBuffer.Placed.read {jb jb' : JitterBuffer} (hp : jb.Placed) (hr : Reads jb jb') :
    jb'.Placed := by
  intro i hi
  obtain ⟨heq, hpast⟩ := hr.left i hi
  rw [heq] at hi ⊢
  obtain ⟨hs, hslot, hle⟩ := hp i hi
  have hnext := ahead_add_one (hpast hs hslot)
  rw [hr.started, hr.nextSeq, if_pos hs]
  exact ⟨hs, hslot, by omega⟩

/-! ## The log -/

theorem BufferLog.push_buffer (log : BufferLog) (seq : UInt16) (timestamp : UInt32) (payload : Bytes) :
    (log.push seq timestamp payload).buffer = (log.buffer.push seq timestamp payload).2 := by
  rw [push]
  dsimp only
  split_ifs <;> rfl

theorem BufferLog.pop_buffer (log : BufferLog) : log.pop.buffer = log.buffer.popNext.2 := by
  rw [pop]
  split <;> simp_all

theorem BufferLog.pop_log (log : BufferLog) : log.pop.count = log.count ∧
    log.pop.latest = log.latest ∧ log.pop.resetAt = log.resetAt := by
  rw [pop]
  split <;> exact ⟨rfl, rfl, rfl⟩

/-- What the slot of a stored push shows of it. -/
structure BufferLog.Backs (log : BufferLog) (slot : Slot) (n : Nat) (f : Frame) : Prop where
  latest : log.latest slot.seq = some (n, f)
  holds : slot.Holds slot.seq.toNat f
  len : f.payload.length ≤ maxFrameBytes
  since : log.resetAt ≤ n
  waits : n ∉ log.returned

/-- Every written slot is backed by a stored push that still waits. -/
structure BufferLog.Sound (log : BufferLog) : Prop where
  placed : log.buffer.Placed
  backed : ∀ i, (log.buffer.slots i).state = .written → ∃ n f, log.Backs (log.buffer.slots i) n f
  numbered : ∀ s n f, log.latest s = some (n, f) → n < log.count
  apart : ∀ s s' n f f', log.latest s = some (n, f) → log.latest s' = some (n, f') → s = s'
  resetAt_le : log.resetAt ≤ log.count
  passed : ∀ n ∈ log.returned, n < log.count
  once : log.returned.Nodup

theorem BufferLog.Sound.new : BufferLog.new.Sound where
  placed := fun _ hi => by cases hi
  backed := fun _ hi => by cases hi
  numbered := fun _ _ _ h => by cases h
  apart := fun _ _ _ _ _ h => by cases h
  resetAt_le := le_rfl
  passed := fun _ h => by cases h
  once := List.nodup_nil

theorem BufferLog.Sound.push {log : BufferLog} (h : log.Sound) (seq : UInt16) (timestamp : UInt32)
    (payload : Bytes) : (log.push seq timestamp payload).Sound := by
  have hr := log.buffer.push_pushes seq ⟨timestamp, payload⟩ h.placed.idle
  have hplaced := h.placed.push hr
  rw [BufferLog.push]
  generalize log.buffer.push seq timestamp payload = r at hr hplaced ⊢
  obtain ⟨outcome, buffer⟩ := r
  dsimp only at hplaced ⊢
  cases hr with
  | refuses hne hslots =>
    rw [if_neg hne]
    exact
      { placed := hplaced
        backed := fun i hi => by
          rw [show buffer.slots = log.buffer.slots from hslots] at hi ⊢
          obtain ⟨n, f, hb⟩ := h.backed i hi
          exact ⟨n, f, hb.latest, hb.holds, hb.len, hb.since, hb.waits⟩
        numbered := h.numbered
        apart := h.apart
        resetAt_le := h.resetAt_le
        passed := h.passed
        once := h.once }
  | stores slot hout hslots hholds hlen =>
    have hseq : slot.seq = seq := hholds.seq.trans (lowSeq_natCast seq)
    have hnew : log.count ∉ log.returned := fun hm => Nat.lt_irrefl _ (h.passed _ hm)
    rw [if_pos hout]
    refine
      { placed := hplaced
        backed := ?_
        numbered := ?_
        apart := ?_
        resetAt_le := Nat.le_succ_of_le h.resetAt_le
        passed := fun n hn => Nat.lt_succ_of_lt (h.passed n hn)
        once := h.once }
    · intro i hi
      dsimp only at hi ⊢
      rw [hslots] at hi ⊢
      by_cases he : i = slotOf seq
      · rw [he, Function.update_self]
        exact ⟨log.count, ⟨timestamp, payload⟩, by rw [hseq]; exact Function.update_self _ _ _,
          hseq.symm ▸ hholds, hlen, h.resetAt_le, hnew⟩
      · rw [Function.update_of_ne he] at hi ⊢
        obtain ⟨n, f, hb⟩ := h.backed i hi
        have hne : (log.buffer.slots i).seq ≠ seq := fun hs =>
          he ((h.placed i hi).2.1.symm.trans (congrArg slotOf hs))
        exact ⟨n, f, (Function.update_of_ne hne _ _).trans hb.latest, hb.holds, hb.len, hb.since,
          hb.waits⟩
    · intro s n f hl
      dsimp only at hl
      by_cases he : s = seq
      · rw [he, Function.update_self] at hl
        cases hl
        exact Nat.lt_succ_self _
      · rw [Function.update_of_ne he] at hl
        exact Nat.lt_succ_of_lt (h.numbered s n f hl)
    · -- The new number is larger than all others.
      have hfresh : ∀ s n f f', s ≠ seq → log.latest s = some (n, f) →
          some (log.count, (⟨timestamp, payload⟩ : Frame)) ≠ some (n, f') := by
        intro s n f f' _ hl he
        cases he
        exact Nat.lt_irrefl _ (h.numbered s _ f hl)
      intro s s' n f f' hl hl'
      dsimp only at hl hl'
      by_cases he : s = seq <;> by_cases he' : s' = seq
      · rw [he, he']
      · rw [he, Function.update_self] at hl
        rw [Function.update_of_ne he'] at hl'
        exact absurd hl (hfresh s' n f' f he' hl')
      · rw [Function.update_of_ne he] at hl
        rw [he', Function.update_self] at hl'
        exact absurd hl' (hfresh s n f f' he hl)
      · rw [Function.update_of_ne he] at hl
        rw [Function.update_of_ne he'] at hl'
        exact h.apart s s' n f f' hl hl'

/-- A read that leaves the log alone but for a number whose slot it has emptied. -/
theorem BufferLog.Sound.read {log log' : BufferLog} (h : log.Sound)
    (hr : log.buffer.Reads log'.buffer) (hcount : log'.count = log.count)
    (hlatest : log'.latest = log.latest) (hreset : log'.resetAt = log.resetAt)
    (hreturned : log'.returned = log.returned ∨ ∃ n f, log.buffer.started = true ∧
      log.latest log.buffer.nextSeq = some (n, f) ∧ n ∉ log.returned ∧
      log'.returned = log.returned ++ [n]) : log'.Sound where
  placed := h.placed.read hr
  backed := by
    intro i hi
    obtain ⟨heq, hpast⟩ := hr.left i hi
    rw [heq] at hi ⊢
    obtain ⟨n, f, hb⟩ := h.backed i hi
    refine ⟨n, f, by rw [hlatest, hb.latest], hb.holds, hb.len, by rw [hreset]; exact hb.since, ?_⟩
    rcases hreturned with heq | ⟨m, g, hs, hl, -, heq⟩
    · rw [heq]
      exact hb.waits
    · rw [heq, List.mem_append, List.mem_singleton]
      rintro (hm | rfl)
      · exact hb.waits hm
      · exact hpast hs (h.placed i hi).2.1 (h.apart _ _ _ _ _ hb.latest hl)
  numbered := by rw [hlatest, hcount]; exact h.numbered
  apart := by rw [hlatest]; exact h.apart
  resetAt_le := by rw [hreset, hcount]; exact h.resetAt_le
  passed := by
    rw [hcount]
    rcases hreturned with heq | ⟨m, g, -, hl, -, heq⟩
    · rw [heq]
      exact h.passed
    · intro n hn
      rw [heq, List.mem_append, List.mem_singleton] at hn
      rcases hn with hn | rfl
      · exact h.passed n hn
      · exact h.numbered _ _ _ hl
  once := by
    rcases hreturned with heq | ⟨m, g, -, -, hm, heq⟩
    · rw [heq]
      exact h.once
    · rw [heq]
      exact List.nodup_append.mpr ⟨h.once, by simp, fun a ha b hb hab =>
        hm (by rw [List.mem_singleton] at hb; rwa [← hb, ← hab])⟩

theorem BufferLog.Sound.fits {log : BufferLog} (h : log.Sound) {i : Fin ringSlots}
    (hi : (log.buffer.slots i).state = .written) :
    (log.buffer.slots i).len.toNat ≤ maxFrameBytes := by
  obtain ⟨n, f, hb⟩ := h.backed i hi
  rw [hb.holds.len]
  exact hb.len

/-- A frame that is returned is the one of the most recent stored push of its number. -/
theorem BufferLog.Sound.frame {log : BufferLog} (h : log.Sound) {data : Bytes} {timestamp : UInt32}
    (hp : log.buffer.popNext.1 = .frame data timestamp) : log.buffer.started = true ∧
      ∃ n, log.latest log.buffer.nextSeq = some (n, ⟨timestamp, data⟩) ∧ log.resetAt ≤ n ∧
        n ∉ log.returned := by
  by_cases hs : log.buffer.started = true
  · by_cases hh : (log.buffer.slots (slotOf log.buffer.nextSeq)).has log.buffer.nextSeq = true
    · obtain ⟨hw, hseq⟩ := (Slot.has_iff _ _).mp hh
      obtain ⟨n, f, hb⟩ := h.backed _ hw
      obtain ⟨h1, -⟩ := JitterBuffer.popNext_of_take hs rfl (JitterBuffer.take_of_has hh (h.fits hw))
      rw [h1, hb.holds.len, hb.holds.payload, hb.holds.timestamp] at hp
      cases hp
      exact ⟨hs, n, hseq ▸ hb.latest, hb.since, hb.waits⟩
    · obtain ⟨h1, -⟩ := JitterBuffer.popNext_of_take hs rfl (if_pos hh)
      rw [h1] at hp
      cases hp
  · rw [JitterBuffer.popNext, if_pos hs] at hp
    cases hp

theorem BufferLog.Sound.pop {log : BufferLog} (h : log.Sound) : log.pop.Sound := by
  have hr := log.buffer.popNext_reads fun hh => h.fits ((Slot.has_iff _ _).mp hh).1
  have hf := @BufferLog.Sound.frame log h
  rw [BufferLog.pop]
  generalize log.buffer.popNext = r at hr hf ⊢
  obtain ⟨outcome, buffer⟩ := r
  cases outcome with
  | frame data timestamp =>
    obtain ⟨hs, n, hl, -, hn⟩ := hf rfl
    exact h.read hr rfl rfl rfl (Or.inr ⟨n, ⟨timestamp, data⟩, hs, hl, hn, by rw [hl]; rfl⟩)
  | missing => exact h.read hr rfl rfl rfl (Or.inl rfl)

theorem BufferLog.Sound.reset {log : BufferLog} (h : log.Sound) :
    { log with buffer := log.buffer.reset, resetAt := log.count : BufferLog }.Sound where
  placed := fun _ hi => by cases hi
  backed := fun _ hi => by cases hi
  numbered := h.numbered
  apart := h.apart
  resetAt_le := le_rfl
  passed := h.passed
  once := h.once

theorem BufferLog.Sound.step {log : BufferLog} (h : log.Sound) (op : BufferOp) :
    (log.step op).Sound := by
  cases op with
  | push seq timestamp payload => exact h.push seq timestamp payload
  | pop => exact h.pop
  | skip => exact h.read log.buffer.skipNext_reads rfl rfl rfl (Or.inl rfl)
  | reset => exact h.reset

theorem BufferLog.sound_run (ops : List BufferOp) : (run ops).Sound := by
  induction ops using List.reverseRecOn with
  | nil => exact Sound.new
  | append_singleton ops op ih =>
    rw [run, List.foldl_append]
    exact ih.step op

/-! ## The read position -/

theorem BufferLog.step_nextSeq {log : BufferLog} (h : log.Sound) (hs : log.buffer.started = true)
    (op : BufferOp) (hop : op ≠ .reset) : (log.step op).buffer.started = true ∧
      (log.step op).buffer.nextSeq = if op.isRead then log.buffer.nextSeq + 1
        else log.buffer.nextSeq := by
  have hread : ∀ {jb : JitterBuffer}, log.buffer.Reads jb →
      jb.started = true ∧ jb.nextSeq = log.buffer.nextSeq + 1 := fun hr =>
    ⟨hr.started.trans hs, by rw [hr.nextSeq, if_pos hs]⟩
  cases op with
  | push seq timestamp payload =>
    have hr := log.buffer.push_pushes seq ⟨timestamp, payload⟩ h.placed.idle
    rw [step, push_buffer]
    generalize log.buffer.push seq timestamp payload = r at hr ⊢
    cases hr with
    | refuses hne hslots hstarted hnext => exact ⟨hstarted.trans hs, hnext⟩
    | stores slot hout hslots hholds hlen hstarted hnear hnext => exact ⟨hstarted, hnext hs⟩
  | pop =>
    have hr := log.buffer.popNext_reads fun hh => h.fits ((Slot.has_iff _ _).mp hh).1
    rw [step, pop_buffer]
    exact hread hr
  | skip => exact hread log.buffer.skipNext_reads
  | reset => exact absurd rfl hop

theorem BufferLog.run_append (ops ops' : List BufferOp) :
    run (ops ++ ops') = ops'.foldl step (run ops) := List.foldl_append ..

/-- Between two resets the read position counts the reads. -/
theorem BufferLog.run_nextSeq (ops ops' : List BufferOp) (hs : (run ops).buffer.started = true)
    (hops : .reset ∉ ops') : (run (ops ++ ops')).buffer.started = true ∧
      (run (ops ++ ops')).buffer.nextSeq =
        (run ops).buffer.nextSeq + UInt16.ofNat (ops'.countP BufferOp.isRead) := by
  induction ops' using List.reverseRecOn with
  | nil => simpa using hs
  | append_singleton ops' op ih =>
    simp only [List.mem_append, List.mem_singleton, not_or] at hops
    obtain ⟨hst, hn⟩ := ih hops.1
    obtain ⟨hst', hn'⟩ := step_nextSeq (sound_run (ops ++ ops')) hst op (Ne.symm hops.2)
    rw [← List.append_assoc, run_append, List.foldl_cons, List.foldl_nil]
    refine ⟨hst', ?_⟩
    rw [hn', hn, List.countP_append, List.countP_singleton]
    split
    · rw [UInt16.ofNat_add, UInt16.add_assoc]
      rfl
    · rfl

/-! ## Main result -/

/-- Over every list of pushes, pops, skips and resets, a pop returns only what the most recent stored
push of its number carried, since the last reset, and no stored push twice; the read position counts
the reads; and a written slot is at most half the ring ahead of it. -/
theorem buffer_safe (ops : List BufferOp) :
    (∀ data timestamp, (BufferLog.run ops).buffer.popNext.1 = .frame data timestamp →
      ∃ n, (BufferLog.run ops).latest (BufferLog.run ops).buffer.nextSeq =
          some (n, ⟨timestamp, data⟩) ∧ (BufferLog.run ops).resetAt ≤ n) ∧
    (BufferLog.run ops).returned.Nodup ∧
    ((BufferLog.run ops).buffer.started = true → ∀ ops', .reset ∉ ops' →
      (BufferLog.run (ops ++ ops')).buffer.nextSeq =
        (BufferLog.run ops).buffer.nextSeq + UInt16.ofNat (ops'.countP BufferOp.isRead)) ∧
    ((BufferLog.run ops).buffer.started = true → ∀ i,
      ((BufferLog.run ops).buffer.slots i).state = .written →
        ((BufferLog.run ops).buffer.slots i).seq.toNat % ringSlots = i ∧
        (((BufferLog.run ops).buffer.slots i).seq - (BufferLog.run ops).buffer.nextSeq).toNat ≤
          32768) := by
  have h := BufferLog.sound_run ops
  refine ⟨fun data timestamp hp => ?_, h.once, fun hs ops' hops => ?_, fun hs i hi => ?_⟩
  · obtain ⟨-, n, hl, hge, -⟩ := h.frame hp
    exact ⟨n, hl, hge⟩
  · exact (BufferLog.run_nextSeq ops ops' hs hops).2
  · obtain ⟨-, hslot, hle⟩ := h.placed i hi
    exact ⟨congrArg Fin.val hslot, hle⟩

end OnlineJam
