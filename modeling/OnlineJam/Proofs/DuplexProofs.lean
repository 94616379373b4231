import OnlineJam.Proofs.CaptureProofs

/-!
# Proofs: both devices together

The callbacks of the two devices in turn, each without being interrupted by the other: the closure that
the output callback calls for its frames takes them from what the input callback delivered.
-/

namespace OnlineJam

open OnlineJam.Lib

namespace Capture

variable {cfg : CaptureConfig} {n : Nat} {c : Capture n} {τ : Type}

/-! ## The closure -/

/-- Until the frame is processed the closure leaves the record of the devices alone. -/
theorem poll_same (cfg : CaptureConfig) (h : ∀ b, c.phase ≠ .process b) :
    (c.poll cfg).captured = c.captured ∧ (c.poll cfg).frames = c.frames := by
  unfold Capture.poll
  split
  · split
    · split <;> exact ⟨rfl, rfl⟩
    · exact ⟨rfl, rfl⟩
  · split <;> exact ⟨rfl, rfl⟩
  · split
    · split <;> exact ⟨rfl, rfl⟩
    · exact ⟨rfl, rfl⟩
  · rename_i b hphase
    exact absurd hphase (h b)

/-- How many operations at most are left to the end of the closure. -/
def rest (c : Capture n) : Nat :=
  match c.phase with
  | .trim => c.ring.length + n + 4
  | .check => n + 3
  | .fill k => n - k + 2
  | .process _ => 1

theorem rest_poll (cfg : CaptureConfig) (h : ∀ b, c.phase ≠ .process b) :
    (c.poll cfg).rest < c.rest := by
  unfold Capture.poll
  split
  · rename_i hphase
    have hrest : c.rest = c.ring.length + n + 4 := by rw [rest, hphase]
    rw [hrest]
    split
    · rename_i hcap
      split
      · rename_i hring
        rw [rest, hphase, hring, List.length_cons]
        dsimp only
        omega
      · rename_i hring
        rw [hring] at hcap
        exact absurd hcap (Nat.not_lt_zero _)
    · dsimp only [rest]
      omega
  · rename_i hphase
    have hrest : c.rest = n + 3 := by rw [rest, hphase]
    rw [hrest]
    split
    · dsimp only [rest]
      omega
    · dsimp only [rest]
      omega
  · rename_i k hphase
    have hrest : c.rest = n - k + 2 := by rw [rest, hphase]
    rw [hrest]
    split
    · split
      · dsimp only [rest]
        omega
      · dsimp only [rest]
        omega
    · dsimp only [rest]
      omega
  · rename_i b hphase
    exact absurd hphase (h b)

/-- The closure comes to process a frame; what its operations keep holds then. -/
theorem work_spec (cfg : CaptureConfig) (fuel : Nat) {p : Capture n → Prop}
    (hstep : ∀ c, p c → (∀ b, c.phase ≠ .process b) → p (c.poll cfg)) (hp : p c)
    (hfuel : c.rest ≤ fuel) : ∃ d b, p d ∧ d.phase = .process b ∧ c.work cfg fuel = d.poll cfg := by
  induction fuel generalizing c with
  | zero =>
    have hpos : 0 < c.rest := by
      unfold rest
      split <;> omega
    omega
  | succ fuel ih =>
    rw [work]
    split
    · rename_i b hphase
      exact ⟨c, b, hp, hphase, rfl⟩
    · rename_i hphase
      have hne : ∀ b, c.phase ≠ .process b := fun b hb => hphase b hb
      have hless := rest_poll cfg hne
      exact ih (hstep c hp hne) (by omega)

/-- What holds between two callbacks. -/
structure Settled (cfg : CaptureConfig) (lag lead : Nat) (c : Capture n) : Prop where
  accounted : Accounted cfg c
  lossless : Lossless lag lead c
  phase : c.phase = .trim

theorem Settled.work {lag lead : Nat} (h : Settled cfg lag lead c)
    (hcap : lead + lag + 2 * n ≤ cfg.driftCap n) (hc : n * c.frames.length ≤ c.captured.length + lag) :
    let d := c.work cfg (c.ring.length + n + 4)
    Settled cfg lag lead d ∧ d.captured = c.captured ∧ d.frames.length = c.frames.length + 1 := by
  obtain ⟨d, b, ⟨ha, hl, hcaptured, hframes⟩, hphase, he⟩ := work_spec cfg (c.ring.length + n + 4)
    (p := fun d => Accounted cfg d ∧ Lossless lag lead d ∧ d.captured = c.captured ∧ d.frames = c.frames)
    (fun d hp hne => by
      obtain ⟨hcaptured, hframes⟩ := poll_same cfg hne
      refine ⟨hp.1.poll, hp.2.1.poll hp.1 hcap fun _ => ?_, hcaptured.trans hp.2.2.1,
        hframes.trans hp.2.2.2⟩
      rw [hp.2.2.1, hp.2.2.2]
      exact hc)
    ⟨h.accounted, h.lossless, rfl, rfl⟩ (by rw [rest, h.phase])
  have hpoll : d.poll cfg = { d with phase := .trim, frames := d.frames ++ [(d.localIn, b)] } := by
    unfold Capture.poll
    rw [hphase]
  have hlossless := hl.poll ha hcap fun hk => by cases hphase.symm.trans hk
  dsimp only
  rw [he]
  refine ⟨⟨ha.poll, hlossless, by rw [hpoll]⟩, by rw [hpoll]; exact hcaptured, ?_⟩
  rw [hpoll]
  dsimp only
  rw [List.length_append, hframes]
  rfl

/-! ## The input callback -/

theorem push_same (cfg : CaptureConfig) (c : Capture n) (x : ℚ) : (c.push cfg x).captured = c.captured ++ [x] ∧
    (c.push cfg x).frames = c.frames ∧ (c.push cfg x).phase = c.phase := by
  unfold Capture.push
  split <;> exact ⟨rfl, rfl, rfl⟩

theorem Settled.pushes {lag lead : Nat} (h : Settled cfg lag lead c)
    (hroom : lead + lag + 2 * n ≤ cfg.ringSize) (xs : List ℚ)
    (hc : c.captured.length + xs.length ≤ n * c.frames.length + lead) :
    let d := xs.foldl (Capture.push cfg) c
    Settled cfg lag lead d ∧ d.captured = c.captured ++ xs ∧ d.frames = c.frames := by
  induction xs generalizing c with
  | nil => exact ⟨h, (List.append_nil _).symm, rfl⟩
  | cons x xs ih =>
    obtain ⟨hcaptured, hframes, hphase⟩ := push_same cfg c x
    rw [List.length_cons] at hc
    have hpushed : Settled cfg lag lead (c.push cfg x) :=
      ⟨h.accounted.push x, h.lossless.push h.accounted hroom (show c.captured.length < _ by omega),
        hphase.trans h.phase⟩
    obtain ⟨h1, h2, h3⟩ := ih hpushed (by
      rw [hcaptured, hframes, List.length_append, List.length_singleton]
      omega)
    refine ⟨h1, ?_, h3.trans hframes⟩
    rw [List.foldl_cons, h2, hcaptured, List.append_assoc]
    rfl

end Capture

/-! ## The output callback -/

namespace OutputStream

variable {n : Nat} {σ τ : Type}

/-- A rule for the loop that fills `pending`. -/
theorem fillPending_rule {process : σ → Samples n → Samples n × σ} {needed : Nat}
    {p : OutputStream n σ → Prop}
    (hstep : ∀ o, p o → o.pending.len < needed → p (o.fillPending process needed 1)) (fuel : Nat)
    {o : OutputStream n σ} (hp : p o) : p (o.fillPending process needed fuel) := by
  induction fuel generalizing o with
  | zero => exact hp
  | succ fuel ih =>
    by_cases hless : o.pending.len < needed
    · have hnext := hstep o hp hless
      rw [fillPending, if_pos hless] at hnext ⊢
      exact ih hnext
    · rw [fillPending, if_neg hless]
      exact hp

theorem drain_same (fromSample : ℚ → τ) (channels needed fuel written : Nat)
    (r : OutputStream n σ × List τ) :
    (drain fromSample channels needed fuel written r).1.processor = r.1.processor ∧
      (drain fromSample channels needed fuel written r).1.frames = r.1.frames := by
  induction fuel generalizing written r with
  | zero => exact ⟨rfl, rfl⟩
  | succ fuel ih =>
    rw [drain]
    split
    · exact ih _ _
    · exact ⟨rfl, rfl⟩

end OutputStream

namespace Duplex

open Capture

variable {n : Nat} {σ τ : Type} {cfg : Config n σ τ} {lag lead : Nat}
  {o : OutputStream n (Capture n × σ)} {heard : List ℚ}

/-- What holds while the output device works, which has got the samples `heard`. -/
structure InPace (cfg : Config n σ τ) (lag lead : Nat) (o : OutputStream n (Capture n × σ))
    (heard : List ℚ) : Prop where
  holds : o.Holds heard
  settled : Settled cfg.capture lag lead o.processor.1
  frames : o.processor.1.frames.length = o.frames.length

/-- Every frame was asked for by the output device. -/
theorem InPace.demand (h : InPace cfg lag lead o heard) :
    n * o.processor.1.frames.length = heard.length + o.pending.len := by
  have hlen := congrArg List.length h.holds.frames
  rw [List.length_append, ← SampleFifo.len, SampleRing.fifo_len, List.length_flatMap] at hlen
  simp only [List.length_ofFn, List.map_const', List.sum_replicate_nat] at hlen
  rw [h.frames, Nat.mul_comm, hlen]

theorem InPace.fill (h : InPace cfg lag lead o heard) (hcap : lead + lag + 2 * n ≤ cfg.capture.driftCap n)
    {needed : Nat} (hneeded : needed ≤ 65536) {captured : List ℚ}
    (hcaptured : o.processor.1.captured = captured) (hpace : heard.length + needed ≤ captured.length + lag)
    (fuel : Nat) :
    let o' := o.fillPending (Capture.process cfg.capture cfg.pipeline) needed fuel
    InPace cfg lag lead o' heard ∧ o'.processor.1.captured = captured := by
  refine OutputStream.fillPending_rule
    (p := fun o => InPace cfg lag lead o heard ∧ o.processor.1.captured = captured)
    (fun o ⟨h, hcaptured⟩ hless => ?_) fuel ⟨h, hcaptured⟩
  have hdemand := h.demand
  obtain ⟨hsettled, hsame, hframes⟩ := h.settled.work hcap (by rw [hcaptured]; omega)
  obtain ⟨hholds, -, -⟩ := h.holds.fill (Capture.process cfg.capture cfg.pipeline) hneeded 1
    (Nat.lt_of_lt_of_le hless (Nat.le_add_right _ _))
  rw [OutputStream.fillPending, if_pos hless] at hholds ⊢
  refine ⟨⟨hholds, hsettled, hframes.trans ?_⟩, hsame.trans hcaptured⟩
  show _ = (o.frames ++ [_]).length
  rw [List.length_append, h.frames]
  rfl

/-- An output callback. -/
theorem InPace.output (h : InPace cfg lag lead o heard) (hn : 0 < n) (hpending : o.pending.len < n)
    (hcap : lead + lag + 2 * n ≤ cfg.capture.driftCap n) {data : List τ}
    (hneeded : data.length / cfg.outputChannels ≤ 65536)
    (hpace : heard.length + data.length / cfg.outputChannels ≤ o.processor.1.captured.length + lag) :
    ∃ heard', InPace cfg lag lead (next cfg o (.output data)) heard' ∧
      (next cfg o (.output data)).pending.len < n ∧
      heard'.length = heard.length + data.length / cfg.outputChannels ∧
      (next cfg o (.output data)).processor.1.captured = o.processor.1.captured := by
  obtain ⟨more, hholds, hpending', hlen, -⟩ := h.holds.callback hn hpending
    (Capture.process cfg.capture cfg.pipeline) cfg.fromSample hneeded
  obtain ⟨hfill, hcaptured⟩ := h.fill hcap hneeded rfl hpace (data.length / cfg.outputChannels)
  obtain ⟨hprocessor, hframes⟩ := OutputStream.drain_same cfg.fromSample cfg.outputChannels
    (data.length / cfg.outputChannels) (data.length / cfg.outputChannels) 0
    (o.fillPending (Capture.process cfg.capture cfg.pipeline) (data.length / cfg.outputChannels)
      (data.length / cfg.outputChannels), data)
  have hprocessor : (next cfg o (.output data)).processor = _ := hprocessor
  have hframes : (next cfg o (.output data)).frames = _ := hframes
  refine ⟨heard ++ more, ⟨hholds, ?_, ?_⟩, hpending', ?_, ?_⟩
  · rw [hprocessor]
    exact hfill.settled
  · rw [hprocessor, hframes]
    exact hfill.frames
  · rw [List.length_append, hlen]
  · rw [hprocessor]
    exact hcaptured

/-- An input callback. -/
theorem InPace.input (h : InPace cfg lag lead o heard) (hroom : lead + lag + 2 * n ≤ cfg.capture.ringSize)
    {data : List τ} (hpace : o.processor.1.captured.length + (delivered cfg (.input data)).length ≤
      heard.length + lead) :
    InPace cfg lag lead (next cfg o (.input data)) heard ∧
      (next cfg o (.input data)).processor.1.captured =
        o.processor.1.captured ++ delivered cfg (.input data) := by
  have hdemand := h.demand
  obtain ⟨hsettled, hcaptured, hframes⟩ := h.settled.pushes hroom (delivered cfg (.input data)) (by omega)
  exact ⟨⟨⟨h.holds.capacity, h.holds.dropped, h.holds.frames⟩, hsettled,
    (congrArg List.length hframes).trans h.frames⟩, hcaptured⟩

/-- While the devices keep pace with each other, everything that the input device delivers gets to the
pipeline or is still in the ring. -/
theorem lossless (hn : 0 < n) (hcap : lead + lag + 2 * n ≤ cfg.capture.driftCap n)
    (hroom : lead + lag + 2 * n ≤ cfg.capture.ringSize) (p : σ) {callbacks : List (DeviceCallback τ)}
    (hneeded : ∀ cb ∈ callbacks, demanded cfg cb ≤ 65536) (hpace : KeepsPace cfg lag lead callbacks) :
    let o := run cfg p callbacks
    ∃ heard, InPace cfg lag lead o heard ∧ o.pending.len < n ∧
      heard.length = (callbacks.map (demanded cfg)).sum ∧
      o.processor.1.captured = callbacks.flatMap (delivered cfg) := by
  induction callbacks using List.reverseRecOn with
  | nil =>
    exact ⟨[], ⟨.new _, ⟨accounted_new _ _, lossless_new lag lead hn, rfl⟩, rfl⟩, hn, rfl, rfl⟩
  | append_singleton cs cb ih =>
    obtain ⟨heard, h, hpending, hheard, hcaptured⟩ :=
      ih (fun cb hcb => hneeded cb (List.mem_append_left _ hcb))
        fun pre hpre => hpace pre (hpre.trans (List.prefix_append _ _))
    obtain ⟨hlead, hlag⟩ := hpace (cs ++ [cb]) List.prefix_rfl
    have hcb := hneeded cb (List.mem_append_right _ (List.mem_singleton_self cb))
    have hrun : run cfg p (cs ++ [cb]) = next cfg (run cfg p cs) cb := List.foldl_concat ..
    rw [List.map_append, List.sum_append, List.flatMap_append, List.length_append] at hlead hlag
    dsimp only
    rw [hrun, List.map_append, List.sum_append, List.flatMap_append, List.flatMap_singleton]
    rw [List.flatMap_singleton, ← hheard, ← hcaptured] at hlead hlag
    cases cb with
    | input data =>
      obtain ⟨h1, h2⟩ := h.input hroom hlead
      exact ⟨heard, h1, hpending, hheard, by rw [h2, hcaptured]⟩
    | output data =>
      obtain ⟨heard', h1, h2, h3, h4⟩ := h.output hn hpending hcap hcb hlag
      exact ⟨heard', h1, h2, by rw [h3, hheard]; rfl, by rw [h4, hcaptured]; exact (List.append_nil _).symm⟩

/-! ## Equal blocks -/

theorem length_channelOf {channels : Nat} (hchannels : 0 < channels) (data : List τ) :
    (OutputStream.channelOf channels 0 data).length = data.length / channels := by
  rw [OutputStream.channelOf, List.length_filterMap_eq_countP, List.countP_eq_length.mpr fun k hk => ?_,
    List.length_range]
  have hk' : (k + 1) * channels ≤ data.length :=
    (Nat.mul_le_mul_right _ (List.mem_range.mp hk)).trans (Nat.div_mul_le_self _ _)
  rw [Nat.succ_mul] at hk'
  have hlt : k * channels + 0 < data.length := by omega
  rw [List.getElem?_eq_getElem hlt]
  rfl

/-- The two devices take turns. -/
def turns (blocks : List (List τ × List τ)) : List (DeviceCallback τ) :=
  blocks.flatMap fun b => [.input b.1, .output b.2]

theorem keepsPace_turns (hin : 0 < cfg.inputChannels) {blocks : List (List τ × List τ)} {size : Nat}
    (hsize : ∀ b ∈ blocks, b.1.length / cfg.inputChannels = size ∧
      b.2.length / cfg.outputChannels = size) : KeepsPace cfg 0 size (turns blocks) := by
  have hlen : ∀ b ∈ blocks, (delivered cfg (.input b.1)).length = size := by
    intro b hb
    rw [delivered, List.length_map, length_channelOf hin]
    exact (hsize b hb).1
  induction blocks with
  | nil =>
    intro cs hcs
    obtain rfl := List.prefix_nil.mp hcs
    exact ⟨Nat.zero_le _, Nat.zero_le _⟩
  | cons b blocks ih =>
    have hpace := ih (fun b hb => hsize b (List.mem_cons_of_mem _ hb))
      fun b hb => hlen b (List.mem_cons_of_mem _ hb)
    have hb := hlen b List.mem_cons_self
    have hb' := (hsize b List.mem_cons_self).2
    intro cs hcs
    rw [turns, List.flatMap_cons, List.cons_append, List.cons_append, List.nil_append] at hcs
    rcases List.prefix_cons_iff.mp hcs with rfl | ⟨cs, rfl, hfirst⟩
    · exact ⟨Nat.zero_le _, Nat.zero_le _⟩
    rw [List.flatMap_cons, List.length_append, List.map_cons, List.sum_cons, hb]
    rcases List.prefix_cons_iff.mp hfirst with rfl | ⟨cs, rfl, hrest⟩
    · exact ⟨(Nat.zero_add _).ge, Nat.zero_le _⟩
    obtain ⟨h1, h2⟩ := hpace cs hrest
    rw [List.flatMap_cons, List.length_append, List.map_cons, List.sum_cons]
    show size + (0 + _) ≤ 0 + (b.2.length / _ + _) + size ∧ 0 + (b.2.length / _ + _) ≤ size + (0 + _) + 0
    rw [hb']
    omega

/-- Without clock drift, whatever the sizes of a frame and of the blocks are, as long as the blocks are not
larger than asked for and the ring has room for the drift cap: at most one frame of silence is heard instead
of the input, and everything else that was captured (the first channel) is heard in order or waits in the
ring, which never holds more than a block and two frames. -/
theorem capture_without_drift (hn : 0 < n) (hin : 0 < cfg.inputChannels) {size : Nat}
    (hbuffer : size ≤ cfg.capture.hwBuffer) (hbound : size ≤ 65536)
    (hroom : cfg.capture.driftCap n ≤ cfg.capture.ringSize) (p : σ) {blocks : List (List τ × List τ)}
    (hsize : ∀ b ∈ blocks, b.1.length / cfg.inputChannels = size ∧
      b.2.length / cfg.outputChannels = size) :
    let c := (run cfg p (turns blocks)).processor.1
    c.starved ≤ 1 ∧ (turns blocks).flatMap (delivered cfg) = c.heard ++ c.ring ∧
      c.ring.length < size + 2 * n := by
  intro c
  have hcap : size + 0 + 2 * n ≤ cfg.capture.driftCap n := by
    unfold CaptureConfig.driftCap
    omega
  have hneeded : ∀ cb ∈ turns blocks, demanded cfg cb ≤ 65536 := by
    intro cb hcb
    obtain ⟨b, hb, hcb⟩ := List.mem_flatMap.mp hcb
    rcases List.mem_cons.mp hcb with rfl | hcb
    · exact Nat.zero_le _
    · rw [List.mem_singleton.mp hcb, demanded, (hsize b hb).2]
      exact hbound
  obtain ⟨heard, h, -, -, hcaptured⟩ := lossless hn hcap (hcap.trans hroom) p hneeded
    (keepsPace_turns hin hsize)
  have hphase := h.settled.phase
  refine ⟨?_, ?_, h.settled.lossless.ring_lt h.settled.accounted⟩
  · have hle := h.settled.lossless.starved_le hn
    rw [Nat.zero_add, Nat.div_eq_of_lt (by omega)] at hle
    exact hle
  · have hall := h.settled.lossless.captured h.settled.accounted
    have hnone : c.inProgress = [] := by rw [inProgress, hphase]
    rw [← hcaptured, hall, hnone, List.append_nil]

/-- Frames of two samples, and blocks of three: stereo in, mono out. -/
theorem capture_without_drift_stereo :
    let cfg : Config 2 Unit ℚ :=
      { capture := { sampleRate := 48, hwBuffer := 3 }, inputChannels := 2, outputChannels := 1
        toSample := id, fromSample := id, pipeline := fun p x _ => (x, p) }
    let blocks := List.replicate 3 ([1, 0, 2, 0, 3, 0], [0, 0, 0])
    let c := (run cfg () (turns blocks)).processor.1
    c.starved ≤ 1 ∧ (turns blocks).flatMap (delivered cfg) = c.heard ++ c.ring ∧
      c.ring.length < 3 + 2 * 2 :=
  capture_without_drift (by decide) (by decide) (by decide) (by decide) (by decide) () (by decide)

end Duplex

end OnlineJam
