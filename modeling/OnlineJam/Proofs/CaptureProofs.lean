import OnlineJam.Core.Capture
import OnlineJam.Proofs.OutputProofs

/-!
# Proofs: what the microphone picks up

The two callbacks may interleave in any way: the ring hands on what it took once and in order, and the
closure never runs out of samples in the middle of a frame. While the devices keep pace with each other,
nothing is lost, and frames are missing only at the start.
-/

namespace OnlineJam

open OnlineJam.Lib

namespace Capture

variable {cfg : CaptureConfig} {n : Nat} {c : Capture n}

/-! ## Accounts -/

/-- What holds between any two operations. -/
structure Accounted (cfg : CaptureConfig) (c : Capture n) : Prop where
  order : (c.taken.map Prod.fst ++ c.ring).Sublist c.captured
  count : c.captured.length = c.taken.length + c.ring.length + c.refused
  room : c.ring.length ≤ cfg.ringSize
  heard : (c.taken.filter Prod.snd).map Prod.fst = c.heard ++ c.inProgress
  silent : ∀ f ∈ c.frames, f.2 = false → f.1 = fun _ => 0
  silence : c.phase = .process false → c.localIn = fun _ => 0
  starved : c.starved = c.frames.countP (fun f => !f.2) + if c.phase = .process false then 1 else 0
  /-- The rest of a frame is there before its first sample is taken. -/
  enough : ∀ k, c.phase = .fill k → k ≤ n ∧ n ≤ c.ring.length + k
  backlog : c.phase ≠ .trim → c.ring.length ≤ cfg.driftCap n + c.fresh

theorem accounted_new (cfg : CaptureConfig) (n : Nat) : Accounted cfg (Capture.new n) where
  order := List.Sublist.refl []
  count := rfl
  room := Nat.zero_le _
  heard := rfl
  silent f hf := by cases hf
  silence h := by cases h
  starved := rfl
  enough k h := by cases h
  backlog h := absurd rfl h

theorem Accounted.push (h : Accounted cfg c) (x : ℚ) : Accounted cfg (c.push cfg x) := by
  unfold Capture.push
  split
  · rename_i hroom
    refine ⟨?_, ?_, ?_, h.heard, h.silent, h.silence, h.starved, fun k hk => ?_, fun hk => ?_⟩
    · rw [← List.append_assoc]
      exact h.order.append_right [x]
    · have hcount := h.count
      simp only [List.length_append, List.length_singleton]
      omega
    · rw [List.length_append]
      exact hroom
    · obtain ⟨hle, henough⟩ := h.enough k hk
      refine ⟨hle, ?_⟩
      rw [List.length_append]
      omega
    · rw [List.length_append]
      exact Nat.succ_le_succ (h.backlog hk)
  · refine ⟨h.order.trans (List.sublist_append_left _ _), ?_, h.room, h.heard, h.silent, h.silence,
      h.starved, h.enough, h.backlog⟩
    have hcount := h.count
    simp only [List.length_append, List.length_singleton]
    omega

/-- A sample more of the frame. -/
theorem take_succ_ofFn {k : Nat} (hk : k < n) (f : Samples n) (x : ℚ) :
    (List.ofFn fun i : Fin n => if i.val = k then x else f i).take (k + 1) =
      (List.ofFn f).take k ++ [x] := by
  have hlen : k < (List.ofFn fun i : Fin n => if i.val = k then x else f i).length := by
    rwa [List.length_ofFn]
  rw [← List.take_append_getElem hlen, List.getElem_ofFn]
  congr 1
  · refine List.ext_getElem (by simp) fun i h1 h2 => ?_
    rw [List.length_take] at h1
    rw [List.getElem_take, List.getElem_take, List.getElem_ofFn, List.getElem_ofFn]
    exact if_neg (Nat.ne_of_lt (by omega : i < k))
  · exact congrArg (fun x => [x]) (if_pos rfl)

/-- The first sample of the ring leaves it. -/
theorem Accounted.taken (h : Accounted cfg c) {x : ℚ} {ring : List ℚ} (hring : c.ring = x :: ring)
    (b : Bool) : ((c.taken ++ [(x, b)]).map Prod.fst ++ ring).Sublist c.captured ∧
      c.captured.length = (c.taken ++ [(x, b)]).length + ring.length + c.refused ∧
      ring.length ≤ cfg.ringSize := by
  have horder := h.order
  have hcount := h.count
  have hroom := h.room
  rw [hring] at horder
  rw [hring, List.length_cons] at hcount hroom
  refine ⟨?_, ?_, by omega⟩
  · rw [List.map_append, List.append_assoc]
    exact horder
  · rw [List.length_append, List.length_singleton]
    omega

theorem Accounted.poll (h : Accounted cfg c) : Accounted cfg (c.poll cfg) := by
  unfold Capture.poll
  split
  · -- Dropping samples.
    rename_i hphase
    have hheard := h.heard
    have hstarved := h.starved
    rw [hphase] at hstarved
    have hnone : c.inProgress = [] := by rw [inProgress, hphase]
    rw [hnone, List.append_nil] at hheard
    split
    · split
      · rename_i x ring hring
        obtain ⟨order, count, room⟩ := h.taken hring false
        refine ⟨order, count, room, ?_, h.silent, h.silence, h.starved,
          fun k hk => (by cases hphase.symm.trans hk), fun hk => absurd hphase hk⟩
        rw [List.filter_append, List.map_append, hheard]
        show c.heard ++ [] = c.heard ++ c.inProgress
        rw [hnone]
      · exact h
    · rename_i hcap
      exact ⟨h.order, h.count, h.room, hheard.trans (List.append_nil _).symm, h.silent,
        fun hk => (by cases hk), hstarved, fun k hk => (by cases hk), fun _ => Nat.le_of_not_lt hcap⟩
  · -- Is there a frame?
    rename_i hphase
    have hheard := h.heard
    have hstarved := h.starved
    have hbacklog := h.backlog (by rw [hphase]; exact CapturePhase.noConfusion)
    have hnone : c.inProgress = [] := by rw [inProgress, hphase]
    rw [hphase] at hstarved
    rw [hnone] at hheard
    split
    · rename_i hlen
      refine ⟨h.order, h.count, h.room, hheard, h.silent, fun hk => (by cases hk), hstarved,
        fun k hk => ?_, fun _ => hbacklog⟩
      obtain rfl := CapturePhase.fill.inj hk
      exact ⟨Nat.zero_le _, hlen⟩
    · exact ⟨h.order, h.count, h.room, hheard, h.silent, fun _ => rfl, congrArg (· + 1) hstarved,
        fun k hk => (by cases hk), fun _ => hbacklog⟩
  · -- A frame is put together.
    rename_i k hphase
    obtain ⟨hle, henough⟩ := h.enough k hphase
    have hheard := h.heard
    have hstarved := h.starved
    have hbacklog := h.backlog (by rw [hphase]; exact CapturePhase.noConfusion)
    have hsome : c.inProgress = (List.ofFn c.localIn).take k := by rw [inProgress, hphase]
    rw [hphase] at hstarved
    rw [hsome] at hheard
    split
    · rename_i hk
      split
      · rename_i x ring hring
        obtain ⟨order, count, room⟩ := h.taken hring true
        rw [hring, List.length_cons] at henough hbacklog
        refine ⟨order, count, room, ?_, h.silent, fun hk => (by cases hk), hstarved, fun j hj => ?_,
          fun _ => by dsimp only; omega⟩
        · rw [List.filter_append, List.map_append, hheard]
          show c.heard ++ _ ++ [x] = c.heard ++ (List.ofFn _).take (k + 1)
          rw [take_succ_ofFn hk, List.append_assoc]
        · obtain rfl := CapturePhase.fill.inj hj
          exact ⟨hk, by dsimp only; omega⟩
      · rename_i hring
        rw [hring, List.length_nil] at henough
        omega
    · rename_i hk
      refine ⟨h.order, h.count, h.room, hheard.trans ?_, h.silent, fun hk => (by cases hk), hstarved,
        fun j hj => (by cases hj), fun _ => hbacklog⟩
      show c.heard ++ (List.ofFn c.localIn).take k = c.heard ++ List.ofFn c.localIn
      rw [List.take_of_length_le (by rw [List.length_ofFn]; omega)]
  · -- The frame is processed.
    rename_i captured hphase
    have hstarved := h.starved
    have hheard := h.heard
    rw [hphase] at hstarved
    refine ⟨h.order, h.count, h.room, hheard.trans ?_, fun f hf hsnd => ?_, fun hk => (by cases hk), ?_,
      fun k hk => (by cases hk), fun hk => absurd rfl hk⟩
    · show c.heard ++ c.inProgress =
        ((c.frames ++ [(c.localIn, captured)]).filter Prod.snd).flatMap (fun f => List.ofFn f.1) ++ []
      rw [List.filter_append, List.flatMap_append, List.append_nil, inProgress, hphase]
      cases captured <;> simp [Capture.heard]
    · rcases List.mem_append.mp hf with hf | hf
      · exact h.silent f hf hsnd
      · obtain rfl := List.mem_singleton.mp hf
        exact h.silence (hphase.trans (congrArg CapturePhase.process hsnd))
    · show c.starved = _
      rw [hstarved, List.countP_append, List.countP_singleton]
      cases captured <;> rfl

theorem Accounted.next {c' : Capture n} {e : CaptureEvent} (h : Accounted cfg c)
    (hn : c.next cfg e = some c') : Accounted cfg c' := by
  cases e with
  | push x => exact Option.some.inj hn ▸ h.push x
  | poll => exact Option.some.inj hn ▸ h.poll

/-! ## Devices that keep pace -/

/-- What holds as well as long as the devices keep pace with each other. -/
structure Lossless (lag lead : Nat) (c : Capture n) : Prop where
  refused : c.refused = 0
  taken : ∀ x ∈ c.taken, x.2 = true
  ahead : c.captured.length ≤ n * c.frames.length + lead
  starved : n * c.starved < 2 * n + lag

theorem lossless_new (lag lead : Nat) (hn : 0 < n) : Lossless lag lead (Capture.new n) where
  refused := rfl
  taken x hx := by cases hx
  ahead := Nat.zero_le _
  starved := by
    show n * 0 < 2 * n + lag
    omega

theorem length_heard (c : Capture n) : c.heard.length = n * c.frames.countP Prod.snd := by
  rw [heard, List.length_flatMap, List.countP_eq_length_filter, Nat.mul_comm]
  simp only [List.length_ofFn, List.map_const', List.sum_replicate_nat]

/-- The ring holds what was captured and not put into a frame, be it complete or not. -/
theorem Lossless.captured {lag lead : Nat} (h : Lossless lag lead c) (ha : Accounted cfg c) :
    c.captured = c.heard ++ c.inProgress ++ c.ring := by
  have hall : c.taken.filter Prod.snd = c.taken := List.filter_eq_self.mpr h.taken
  have heq : c.taken.map Prod.fst ++ c.ring = c.captured := by
    refine ha.order.eq_of_length ?_
    rw [List.length_append, List.length_map, ha.count, h.refused, Nat.add_zero]
  rw [← heq, ← ha.heard, hall]

/-- How many samples there are of which kind. -/
theorem Lossless.counts {lag lead : Nat} (h : Lossless lag lead c) (ha : Accounted cfg c) :
    c.captured.length = n * c.frames.countP Prod.snd + c.inProgress.length + c.ring.length ∧
      n * c.frames.length = n * c.frames.countP Prod.snd + n * c.frames.countP (fun f => !f.2) := by
  constructor
  · rw [h.captured ha, List.length_append, List.length_append, length_heard]
  · rw [← Nat.mul_add, List.length_eq_countP_add_countP Prod.snd]
    congr 3
    funext f
    cases f.2 <;> rfl

/-- Latency stays bounded. -/
theorem Lossless.ring_lt {lag lead : Nat} (h : Lossless lag lead c) (ha : Accounted cfg c) :
    c.ring.length < lead + lag + 2 * n := by
  obtain ⟨hcaptured, hframes⟩ := h.counts ha
  have hahead := h.ahead
  have hstarved := h.starved
  have hsilent : n * c.frames.countP (fun f => !f.2) ≤ n * c.starved :=
    Nat.mul_le_mul_left n (by rw [ha.starved]; exact Nat.le_add_right _ _)
  omega

theorem Lossless.push {lag lead : Nat} (h : Lossless lag lead c) (ha : Accounted cfg c)
    (hroom : lead + lag + 2 * n ≤ cfg.ringSize) {x : ℚ} (hc : c.KeepsPace lag lead (.push x)) :
    Lossless lag lead (c.push cfg x) := by
  have hring := h.ring_lt ha
  rw [Capture.push, if_pos (by omega)]
  refine ⟨h.refused, h.taken, ?_, h.starved⟩
  rw [List.length_append]
  exact hc

theorem Lossless.poll {lag lead : Nat} (h : Lossless lag lead c) (ha : Accounted cfg c)
    (hcap : lead + lag + 2 * n ≤ cfg.driftCap n) (hc : c.KeepsPace lag lead .poll) :
    Lossless lag lead (c.poll cfg) := by
  have hring := h.ring_lt ha
  unfold Capture.poll
  split
  · rw [if_neg (by omega)]
    exact ⟨h.refused, h.taken, h.ahead, h.starved⟩
  · rename_i hphase
    split
    · exact ⟨h.refused, h.taken, h.ahead, h.starved⟩
    · -- A frame is missing.
      rename_i hshort
      obtain ⟨hcaptured, hframes⟩ := h.counts ha
      have hpace := hc hphase
      have hstarved := ha.starved
      have hnone : c.inProgress = [] := by rw [inProgress, hphase]
      rw [hphase, if_neg (by exact CapturePhase.noConfusion), Nat.add_zero] at hstarved
      rw [hnone, List.length_nil] at hcaptured
      rw [← hstarved] at hframes
      refine ⟨h.refused, h.taken, h.ahead, ?_⟩
      dsimp only
      rw [Nat.mul_succ]
      omega
  · split
    · split
      · refine ⟨h.refused, fun x hx => ?_, h.ahead, h.starved⟩
        rcases List.mem_append.mp hx with hx | hx
        · exact h.taken x hx
        · rw [List.mem_singleton.mp hx]
      · exact ⟨h.refused, h.taken, h.ahead, h.starved⟩
    · exact ⟨h.refused, h.taken, h.ahead, h.starved⟩
  · refine ⟨h.refused, h.taken, h.ahead.trans ?_, h.starved⟩
    rw [List.length_append]
    exact Nat.add_le_add_right (Nat.mul_le_mul_left n (Nat.le_add_right _ _)) _

theorem Lossless.starved_le {lag lead : Nat} (h : Lossless lag lead c) (hn : 0 < n) :
    c.starved ≤ 1 + (lag + n - 1) / n := by
  have hstarved := h.starved
  have hdiv : 1 + (lag + n - 1) / n = (lag + n - 1 + n) / n := by
    rw [Nat.add_div_right _ hn, Nat.add_comm]
  rw [hdiv, Nat.le_div_iff_mul_le hn, Nat.mul_comm]
  omega

/-! ## Main results -/

/-- However the callbacks interleave: every sample that found room leaves the ring once and in order, and
with those that found none they are all that was captured; what the pipeline hears is silence for each frame
that `capture_starved` counts and otherwise what left the ring, and once the closure stopped dropping
samples the ring is as full as the cap allows, but for what it took since. -/
theorem capture_in_order {es : List CaptureEvent} (hr : Runs cfg n (fun _ _ => True) es c) :
    ((c.taken.map Prod.fst ++ c.ring).Sublist c.captured ∧
      c.captured.length = c.taken.length + c.ring.length + c.refused) ∧
    (c.taken.filter Prod.snd).map Prod.fst = c.heard ++ c.inProgress ∧
    ((∀ f ∈ c.frames, f.2 = false → f.1 = fun _ => 0) ∧
      c.starved = c.frames.countP (fun f => !f.2) + if c.phase = .process false then 1 else 0) ∧
    c.ring.length ≤ cfg.ringSize ∧
    (c.phase ≠ .trim → c.ring.length ≤ cfg.driftCap n + c.fresh) := by
  have h := hr.invariant (accounted_new cfg n) fun _ _ _ _ _ ha _ hs => ha.next hs
  exact ⟨⟨h.order, h.count⟩, h.heard, ⟨h.silent, h.starved⟩, h.room, h.backlog⟩

/-- The input device is seven samples ahead, which is too much for the cap and for the ring. -/
theorem capture_in_order_ahead : ∃ es c, Runs { sampleRate := 24, hwBuffer := 1 } 1 (fun _ _ => True) es c ∧
    c.refused = 1 ∧ c.taken = [(1, false), (2, false), (3, true)] ∧
    (c.taken.map Prod.fst ++ c.ring).Sublist c.captured ∧
    (c.taken.filter Prod.snd).map Prod.fst = c.heard ++ c.inProgress := by
  obtain ⟨c, hr, hc⟩ := Runs.of_test { sampleRate := 24, hwBuffer := 1 } 1
    ([1, 2, 3, 4, 5, 6, 7].map CaptureEvent.push ++ List.replicate 7 .poll) (fun _ _ => true)
    (fun c => decide (c.refused = 1 ∧ c.taken = [(1, false), (2, false), (3, true)]))
    (fun _ _ _ => trivial) (by decide +kernel)
  obtain ⟨h1, h2⟩ := of_decide_eq_true hc
  obtain ⟨⟨horder, -⟩, hheard, -⟩ := capture_in_order hr
  exact ⟨_, c, hr, h1, h2, horder, hheard⟩

/-- While the devices keep pace with each other, everything that is captured gets into a frame, and frames
are missing only until the closure has fallen back by as much as the input device may lag. -/
theorem capture_lossless {lag lead : Nat} {es : List CaptureEvent} (hn : 0 < n)
    (hcap : lead + lag + 2 * n ≤ cfg.driftCap n) (hroom : lead + lag + 2 * n ≤ cfg.ringSize)
    (hr : Runs cfg n (KeepsPace lag lead) es c) :
    c.captured = c.heard ++ c.inProgress ++ c.ring ∧ c.starved ≤ 1 + (lag + n - 1) / n ∧
      c.ring.length < lead + lag + 2 * n := by
  have hboth := hr.invariant (p := fun c => Accounted cfg c ∧ Lossless lag lead c)
    ⟨accounted_new cfg n, lossless_new lag lead hn⟩ fun _ c e c' _ hp hc hs => by
      refine ⟨hp.1.next hs, ?_⟩
      cases e with
      | push x => exact Option.some.inj hs ▸ hp.2.push hp.1 hroom hc
      | poll => exact Option.some.inj hs ▸ hp.2.poll hp.1 hcap hc
  exact ⟨hboth.2.captured hboth.1, hboth.2.starved_le hn, hboth.2.ring_lt hboth.1⟩

/-- The test for `KeepsPace`. -/
def keepsPace (lag lead : Nat) (c : Capture n) : CaptureEvent → Bool
  | .push _ => c.captured.length < n * c.frames.length + lead
  | .poll => c.phase ≠ .check || n * c.frames.length ≤ c.captured.length + lag

theorem keepsPace_of_test {lag lead : Nat} {e : CaptureEvent} (h : c.keepsPace lag lead e = true) :
    c.KeepsPace lag lead e := by
  cases e with
  | push x =>
    show c.captured.length < _
    exact of_decide_eq_true h
  | poll =>
    intro hphase
    rw [keepsPace, hphase, decide_eq_false (not_not.mpr rfl), Bool.false_or] at h
    exact of_decide_eq_true h

/-- The closure is early, and the input device pushes while a frame is put together. -/
theorem capture_lossless_early : ∃ es c, Runs { sampleRate := 100, hwBuffer := 5 } 2 (KeepsPace 2 4) es c ∧
    c.captured = [1, 2, 3, 4] ∧ c.captured = c.heard ++ c.inProgress ++ c.ring ∧ c.starved ≤ 2 := by
  obtain ⟨c, hr, hc⟩ := Runs.of_test { sampleRate := 100, hwBuffer := 5 } 2
    (List.replicate 3 .poll ++ [.push 1, .push 2, .push 3, .poll, .poll, .poll, .push 4] ++
      List.replicate 3 .poll)
    (fun c e => c.keepsPace 2 4 e) (fun c => decide (c.captured = [1, 2, 3, 4]))
    (fun _ _ h => keepsPace_of_test h) (by decide +kernel)
  obtain ⟨hall, hstarved, -⟩ := capture_lossless (by decide) (by decide) (by decide) hr
  exact ⟨_, c, hr, of_decide_eq_true hc, hall, hstarved⟩

end Capture

end OnlineJam
