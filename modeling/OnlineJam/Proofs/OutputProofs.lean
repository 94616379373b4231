import OnlineJam.Core.Output
import OnlineJam.Proofs.AccumProofs
import Mathlib.Data.List.Induction

/-!
# Proofs: the device hears the frames

Whatever the sizes of the blocks, what has been written is what was pulled less what is pending, so that
nothing is lost, repeated or left over from an earlier block.
-/

namespace OnlineJam

namespace OutputStream

variable {n : Nat} {σ τ : Type}

/-! ## Writing a block -/

/-- Samples side by side for all channels. -/
def spread (channels : Nat) (fromSample : ℚ → τ) (samples : List ℚ) : List τ :=
  samples.flatMap fun s => List.replicate channels (fromSample s)

theorem spread_append (channels : Nat) (fromSample : ℚ → τ) (xs ys : List ℚ) :
    spread channels fromSample (xs ++ ys) =
      spread channels fromSample xs ++ spread channels fromSample ys := List.flatMap_append

theorem spread_cons (channels : Nat) (fromSample : ℚ → τ) (x : ℚ) (xs : List ℚ) :
    spread channels fromSample (x :: xs) =
      List.replicate channels (fromSample x) ++ spread channels fromSample xs := List.flatMap_cons

theorem length_spread (channels : Nat) (fromSample : ℚ → τ) (xs : List ℚ) :
    (spread channels fromSample xs).length = xs.length * channels := by
  induction xs with
  | nil => simp [spread]
  | cons x xs ih =>
    rw [spread_cons, List.length_append, List.length_replicate, ih, List.length_cons, Nat.succ_mul,
      Nat.add_comm]

theorem getElem_spread {channels ch : Nat} (fromSample : ℚ → τ) (hch : ch < channels) (xs : List ℚ)
    (k : Nat) : (spread channels fromSample xs)[k * channels + ch]? = xs[k]?.map fromSample := by
  induction xs generalizing k with
  | nil => simp [spread]
  | cons x xs ih =>
    rw [spread_cons]
    cases k with
    | zero =>
      rw [Nat.zero_mul, Nat.zero_add, List.getElem?_append_left (by rwa [List.length_replicate])]
      simp [hch]
    | succ k =>
      rw [List.getElem?_append_right (by rw [List.length_replicate, Nat.succ_mul]; omega),
        List.length_replicate, Nat.succ_mul, show k * channels + channels + ch - channels =
          k * channels + ch by omega, ih]
      rfl

theorem fanOut_append {channels base : Nat} (v : τ) (front rest : List τ) (hbase : front.length = base)
    (hrest : channels ≤ rest.length) : fanOut channels base v (front ++ rest) =
      front ++ List.replicate channels v ++ rest.drop channels := by
  induction channels with
  | zero => simp [fanOut]
  | succ channels ih =>
    have hlen : (front ++ List.replicate channels v).length = base + channels := by
      rw [List.length_append, List.length_replicate, hbase]
    have hprev := ih (by omega)
    unfold fanOut at hprev ⊢
    rw [List.range_succ, List.foldl_append, hprev, List.foldl_cons, List.foldl_nil,
      List.set_append_right _ _ hlen.le, hlen, Nat.sub_self, List.drop_eq_getElem_cons hrest,
      List.set_cons_zero, List.replicate_succ']
    simp

/-- Samples written one after the other. -/
theorem foldl_fanOut {channels written : Nat} (fromSample : ℚ → τ) (xs : List ℚ) (i : Nat)
    (front rest : List τ) (hfront : front.length = (written + i) * channels)
    (hrest : xs.length * channels ≤ rest.length) :
    (xs.zipIdx i).foldl
        (fun data (s, k) => fanOut channels ((written + k) * channels) (fromSample s) data) (front ++ rest) =
      front ++ spread channels fromSample xs ++ rest.drop (xs.length * channels) := by
  induction xs generalizing i front rest with
  | nil => simp [spread]
  | cons x xs ih =>
    rw [List.length_cons, Nat.succ_mul] at hrest
    rw [List.zipIdx_cons, List.foldl_cons]
    dsimp only
    rw [fanOut_append _ _ _ hfront (by omega), ih]
    · rw [spread_cons, List.drop_drop, List.length_cons, Nat.succ_mul,
        Nat.add_comm channels]
      simp only [List.append_assoc]
    · rw [List.length_append, List.length_replicate, hfront, ← Nat.succ_mul]
      congr 1
    · rw [List.length_drop]
      omega

/-! ## Draining -/

theorem popInto_spec {o : OutputStream n σ} {take : Nat} (htake : take ≤ o.pending.len) (hn : take ≤ n) :
    (o.popInto take).pending.fifo = { o.pending.fifo with samples := o.pending.fifo.samples.drop take } ∧
    (List.ofFn (o.popInto take).frameBuf).take take = o.pending.fifo.samples.take take ∧
    (o.popInto take).frames = o.frames ∧ (o.popInto take).dropped = o.dropped := by
  obtain ⟨hpopped, hrest⟩ := o.pending.pop_fifo take
  rw [SampleFifo.pop, SampleRing.fifo_len, if_neg (Nat.not_lt.mpr htake)] at hpopped hrest
  refine ⟨hrest, ?_, rfl, rfl⟩
  rw [popInto]
  dsimp only
  rw [hpopped]
  have hlen : (o.pending.fifo.samples.take take).length = take :=
    List.length_take_of_le (by rw [← SampleFifo.len, SampleRing.fifo_len]; exact htake)
  refine List.ext_getElem (by rw [List.length_take_of_le (by rwa [List.length_ofFn]), hlen])
    fun i h1 h2 => ?_
  rw [List.getElem_take, List.getElem_ofFn]
  dsimp only
  rw [if_pos (by omega)]
  exact (List.getElem_eq_getD 0).symm

/-- The second loop writes the oldest samples and takes them out of `pending`. -/
theorem drain_spec (fromSample : ℚ → τ) {channels needed : Nat} (hn : 0 < n) (fuel written : Nat)
    {o : OutputStream n σ} {front rest : List τ} (hwritten : written ≤ needed)
    (hfuel : needed ≤ written + fuel) (hlen : needed - written ≤ o.pending.len)
    (hfront : front.length = written * channels) (hrest : (needed - written) * channels ≤ rest.length) :
    let r := drain fromSample channels needed fuel written (o, front ++ rest)
    r.2 = front ++ spread channels fromSample (o.pending.fifo.samples.take (needed - written)) ++
      rest.drop ((needed - written) * channels) ∧
    r.1.pending.fifo =
      { o.pending.fifo with samples := o.pending.fifo.samples.drop (needed - written) } ∧
    r.1.frames = o.frames ∧ r.1.dropped = o.dropped := by
  induction fuel generalizing written o front rest with
  | zero =>
    have hdone : needed - written = 0 := by omega
    rw [hdone]
    simp [drain, spread]
  | succ fuel ih =>
    intro r
    by_cases hmore : written < needed
    · have htake : min (needed - written) n ≤ o.pending.len := (Nat.min_le_left _ _).trans hlen
      obtain ⟨hpending, hbuf, hframes, hdropped⟩ := popInto_spec htake (Nat.min_le_right _ _)
      have hpos : 0 < min (needed - written) n := Nat.lt_min.mpr ⟨by omega, hn⟩
      have hsplit : needed - written =
          min (needed - written) n + (needed - (written + min (needed - written) n)) := by omega
      have hr : r = drain fromSample channels needed fuel (written + min (needed - written) n)
          (o.popInto (min (needed - written) n),
            ((o.pending.fifo.samples.take (min (needed - written) n)).zipIdx.foldl
              (fun data (s, k) => fanOut channels ((written + k) * channels) (fromSample s) data)
              (front ++ rest))) := by
        rw [← hbuf]
        exact if_pos hmore
      generalize min (needed - written) n = take at htake hpending hbuf hframes hdropped hpos hsplit hr
      have hsamples : (o.pending.fifo.samples.take take).length = take :=
        List.length_take_of_le (by rw [← SampleFifo.len, SampleRing.fifo_len]; exact htake)
      have hroom : take * channels + (needed - (written + take)) * channels ≤ rest.length := by
        rw [← Nat.add_mul, ← hsplit]
        exact hrest
      rw [foldl_fanOut fromSample _ 0 front rest (by rw [Nat.add_zero]; exact hfront)
        (by rw [hsamples]; omega), hsamples] at hr
      have hlen' : needed - (written + take) ≤ (o.popInto take).pending.len := by
        rw [← SampleRing.fifo_len, hpending, SampleFifo.len, List.length_drop, ← SampleFifo.len,
          SampleRing.fifo_len]
        omega
      have hfront' : (front ++ spread channels fromSample (o.pending.fifo.samples.take take)).length =
          (written + take) * channels := by
        rw [List.length_append, hfront, length_spread, hsamples, Nat.add_mul]
      have hrest' : (needed - (written + take)) * channels ≤ (rest.drop (take * channels)).length := by
        rw [List.length_drop]
        omega
      obtain ⟨h1, h2, h3, h4⟩ := ih (written + take) (by omega) (by omega) hlen' hfront' hrest'
      rw [hr, h1, h2, h3, h4, hpending, hframes, hdropped]
      refine ⟨?_, ?_, rfl, rfl⟩
      · dsimp only
        rw [List.drop_drop, ← Nat.add_mul, ← hsplit, List.append_assoc front, ← spread_append]
        congr 2
        rw [hsplit, List.take_add]
      · dsimp only
        rw [List.drop_drop, ← hsplit]
    · have hdone : needed - written = 0 := by omega
      have hr : r = (o, front ++ rest) := if_neg hmore
      rw [hr, hdone]
      simp [spread]

/-! ## Filling -/

/-- Nothing was lost: the frames so far are what was heard and what is pending. -/
structure Holds (o : OutputStream n σ) (heard : List ℚ) : Prop where
  capacity : o.pending.capacity = pendingCapacity n
  dropped : o.dropped = 0
  frames : o.frames.flatMap List.ofFn = heard ++ o.pending.fifo.samples

theorem Holds.new (processor : σ) : Holds (OutputStream.new n processor) [] where
  capacity := List.length_replicate
  dropped := rfl
  frames := by
    rw [OutputStream.new, SampleRing.fifo_new]
    rfl

/-- The room of `pending` is never used up. -/
theorem push_room {f : SampleRing} (frame : Samples n) {needed : Nat}
    (hcap : f.capacity = pendingCapacity n) (hlen : f.len < needed) (hneeded : needed ≤ 65536) :
    (f.push (List.ofFn frame)).1 = 0 ∧ (f.push (List.ofFn frame)).2.fifo =
      { f.fifo with samples := f.fifo.samples ++ List.ofFn frame } := by
  obtain ⟨hdropped, hpushed⟩ := f.push_fifo (List.ofFn frame)
  have hroom : (f.fifo.samples ++ List.ofFn frame).length - f.fifo.capacity = 0 := by
    rw [List.length_append, List.length_ofFn, ← SampleFifo.len, SampleRing.fifo_len]
    show f.len + n - f.capacity = 0
    rw [hcap, pendingCapacity]
    omega
  rw [hdropped, hpushed, SampleFifo.push]
  dsimp only
  rw [hroom, List.drop_zero]
  exact ⟨rfl, rfl⟩

/-- The first loop ends with enough samples, and with less than a frame too many. -/
theorem Holds.fill {o : OutputStream n σ} {heard : List ℚ} (h : Holds o heard)
    (process : σ → Samples n → Samples n × σ) {needed : Nat} (hneeded : needed ≤ 65536) (fuel : Nat)
    (hlen : o.pending.len < needed + n) :
    Holds (o.fillPending process needed fuel) heard ∧
    (o.fillPending process needed fuel).pending.len < needed + n ∧
    (0 < n → needed ≤ o.pending.len + fuel →
      needed ≤ (o.fillPending process needed fuel).pending.len) := by
  induction fuel generalizing o with
  | zero => exact ⟨h, hlen, fun _ henough => henough⟩
  | succ fuel ih =>
    rw [fillPending]
    by_cases hless : o.pending.len < needed
    · rw [if_pos hless]
      generalize process o.processor o.frameBuf = r
      obtain ⟨frame, processor⟩ := r
      obtain ⟨hdropped, hpushed⟩ := push_room frame h.capacity hless hneeded
      have hlen' : (o.pending.push (List.ofFn frame)).2.len = o.pending.len + n := by
        rw [← SampleRing.fifo_len, hpushed, SampleFifo.len, List.length_append, List.length_ofFn,
          ← SampleFifo.len, SampleRing.fifo_len]
      have hnext : Holds ⟨(o.pending.push (List.ofFn frame)).2, frame, processor, o.frames ++ [frame],
          o.dropped + (o.pending.push (List.ofFn frame)).1⟩ heard := by
        refine ⟨?_, ?_, ?_⟩
        · exact (congrArg SampleFifo.capacity hpushed).trans h.capacity
        · show o.dropped + _ = 0
          rw [h.dropped, hdropped]
        · show (o.frames ++ [frame]).flatMap List.ofFn = heard ++ (o.pending.push _).2.fifo.samples
          rw [List.flatMap_append, h.frames, hpushed, List.append_assoc]
          simp
      obtain ⟨i1, i2, i3⟩ := ih hnext (by
        show (o.pending.push (List.ofFn frame)).2.len < needed + n
        omega)
      refine ⟨i1, i2, fun hn henough => i3 hn ?_⟩
      show needed ≤ (o.pending.push (List.ofFn frame)).2.len + fuel
      omega
    · rw [if_neg hless]
      exact ⟨h, hlen, fun _ _ => Nat.le_of_not_lt hless⟩

/-- More fuel than rounds changes nothing. -/
theorem fillPending_fuel {o : OutputStream n σ} {process : σ → Samples n → Samples n × σ}
    {needed fuel : Nat} (h : needed ≤ (o.fillPending process needed fuel).pending.len) (more : Nat) :
    o.fillPending process needed (fuel + more) = o.fillPending process needed fuel := by
  induction fuel generalizing o with
  | zero =>
    cases more with
    | zero => rfl
    | succ more => exact if_neg (Nat.not_lt.mpr h)
  | succ fuel ih =>
    rw [Nat.succ_add, fillPending, fillPending]
    rw [fillPending] at h
    by_cases hless : o.pending.len < needed
    · rw [if_pos hless] at h ⊢
      rw [if_pos hless]
      exact ih h
    · rw [if_neg hless, if_neg hless]

/-! ## Callbacks -/

theorem channelOf_spread {channels ch : Nat} (fromSample : ℚ → τ) (hch : ch < channels)
    {samples : List ℚ} {data : List τ} (hlen : samples.length = data.length / channels) :
    channelOf channels ch (spread channels fromSample samples ++ data.drop (samples.length * channels)) =
      samples.map fromSample := by
  have hle : samples.length * channels ≤ data.length := hlen ▸ Nat.div_mul_le_self _ _
  have htotal : (spread channels fromSample samples ++ data.drop (samples.length * channels)).length =
      data.length := by
    rw [List.length_append, length_spread, List.length_drop]
    omega
  rw [channelOf, htotal, ← hlen]
  have hread : ∀ k ∈ List.range samples.length,
      (spread channels fromSample samples ++ data.drop (samples.length * channels))[k * channels + ch]? =
        samples[k]?.map fromSample := by
    intro k hk
    have hk' : (k + 1) * channels ≤ samples.length * channels :=
      Nat.mul_le_mul_right _ (List.mem_range.mp hk)
    rw [List.getElem?_append_left (by rw [length_spread]; rw [Nat.succ_mul] at hk'; omega),
      getElem_spread fromSample hch]
  rw [List.filterMap_congr hread]
  clear hread htotal hle hlen
  induction samples using List.reverseRecOn with
  | nil => rfl
  | append_singleton xs x ih =>
    rw [List.length_append, List.length_singleton, List.range_succ, List.filterMap_append,
      List.map_append]
    congr 1
    · rw [← ih]
      refine List.filterMap_congr fun k hk => ?_
      rw [List.getElem?_append_left (List.mem_range.mp hk)]
    · simp

/-- One callback: its block is filled with what comes next. -/
theorem Holds.callback {o : OutputStream n σ} {heard : List ℚ} (h : Holds o heard) (hn : 0 < n)
    (hlen : o.pending.len < n) (process : σ → Samples n → Samples n × σ) (fromSample : ℚ → τ)
    {channels : Nat} {data : List τ} (hneeded : data.length / channels ≤ 65536) :
    let r := o.callback process fromSample channels data
    ∃ next, Holds r.1 (heard ++ next) ∧ r.1.pending.len < n ∧ next.length = data.length / channels ∧
      ∀ ch < channels, channelOf channels ch r.2 = next.map fromSample := by
  intro r
  obtain ⟨hholds, hshort, henough⟩ := h.fill process hneeded (data.length / channels)
    (Nat.lt_of_lt_of_le hlen (Nat.le_add_left _ _))
  have henough' := henough hn (Nat.le_add_left _ _)
  have hr : r = drain fromSample channels (data.length / channels) (data.length / channels) 0
      (o.fillPending process (data.length / channels) (data.length / channels), [] ++ data) := rfl
  generalize o.fillPending process (data.length / channels) (data.length / channels) = q
    at hholds hshort henough' hr
  obtain ⟨hdata, hpending, hframes, hdropped⟩ := drain_spec fromSample hn (data.length / channels) 0
    (Nat.zero_le _) (Nat.le_add_left _ _) (by rw [Nat.sub_zero]; exact henough')
    (show ([] : List τ).length = 0 * channels by rw [Nat.zero_mul]; rfl)
    (by rw [Nat.sub_zero]; exact Nat.div_mul_le_self _ _)
  rw [← hr] at hdata hpending hframes hdropped
  rw [Nat.sub_zero] at hdata hpending
  rw [← SampleRing.fifo_len, SampleFifo.len] at hshort henough'
  have hnext : (q.pending.fifo.samples.take (data.length / channels)).length = data.length / channels :=
    List.length_take_of_le henough'
  refine ⟨q.pending.fifo.samples.take (data.length / channels), ⟨?_, ?_, ?_⟩, ?_, hnext, fun ch hch => ?_⟩
  · exact (congrArg SampleFifo.capacity hpending).trans hholds.capacity
  · rw [hdropped, hholds.dropped]
  · rw [hframes, hpending, hholds.frames, List.append_assoc, List.take_append_drop]
  · rw [← SampleRing.fifo_len, hpending, SampleFifo.len, List.length_drop]
    omega
  · have hread := channelOf_spread fromSample hch hnext
    rw [hnext] at hread
    rw [hdata, List.nil_append]
    exact hread

theorem Holds.callbacks {o : OutputStream n σ} {heard : List ℚ} (h : Holds o heard) (hn : 0 < n)
    (hlen : o.pending.len < n) (process : σ → Samples n → Samples n × σ) (fromSample : ℚ → τ)
    {channels : Nat} {blocks : List (List τ)} (hblocks : ∀ data ∈ blocks, data.length / channels ≤ 65536) :
    let r := o.callbacks process fromSample channels blocks
    ∃ next, Holds r.1 (heard ++ next) ∧ r.1.pending.len < n ∧
      next.length = (blocks.map fun data => data.length / channels).sum ∧
      ∀ ch < channels, r.2.flatMap (channelOf channels ch) = next.map fromSample := by
  induction blocks generalizing o heard with
  | nil => exact ⟨[], by rw [List.append_nil]; exact h, hlen, rfl, fun _ _ => rfl⟩
  | cons data blocks ih =>
    obtain ⟨first, h1, h2, h3, h4⟩ := h.callback hn hlen process fromSample
      (hblocks data List.mem_cons_self)
    obtain ⟨rest, i1, i2, i3, i4⟩ := ih h1 h2 fun data hdata => hblocks data (List.mem_cons_of_mem _ hdata)
    refine ⟨first ++ rest, by rw [← List.append_assoc]; exact i1, i2, ?_, fun ch hch => ?_⟩
    · rw [List.length_append, h3, i3, List.map_cons, List.sum_cons]
    · rw [List.map_append, ← h4 ch hch, ← i4 ch hch]
      exact List.flatMap_cons

end OutputStream

/-! ## Main result -/

open OutputStream

/-- For blocks of any sizes, what every channel of the device gets is the frames in order, up to less than
one frame that is still pending; nothing is dropped, and the loop that fills a block ends. -/
theorem output_plays_frames {n channels : Nat} {σ τ : Type} (hn : 1 ≤ n)
    (process : σ → Samples n → Samples n × σ) (fromSample : ℚ → τ) (processor : σ)
    (blocks : List (List τ)) (hblocks : ∀ data ∈ blocks, data.length / channels ≤ 65536) :
    let r := (OutputStream.new n processor).callbacks process fromSample channels blocks
    r.1.dropped = 0 ∧ r.1.pending.len < n ∧
    (∃ heard, r.1.frames.flatMap List.ofFn = heard ++ r.1.pending.fifo.samples ∧
      heard.length = (blocks.map fun data => data.length / channels).sum ∧
      ∀ ch < channels, r.2.flatMap (channelOf channels ch) = heard.map fromSample) ∧
    ∀ needed ≤ 65536,
      needed ≤ (r.1.fillPending process needed needed).pending.len ∧
      ∀ more, r.1.fillPending process needed (needed + more) = r.1.fillPending process needed needed := by
  intro r
  obtain ⟨heard, h1, h2, h3, h4⟩ :=
    (Holds.new processor).callbacks hn hn process fromSample hblocks
  refine ⟨h1.dropped, h2, ⟨heard, h1.frames, h3, h4⟩, fun needed hneeded => ?_⟩
  obtain ⟨-, -, henough⟩ := h1.fill process hneeded needed (Nat.lt_of_lt_of_le h2 (Nat.le_add_left _ _))
  have hends := henough hn (Nat.le_add_left _ _)
  exact ⟨hends, fillPending_fuel hends⟩

/-- Frames of three samples for stereo blocks of two and five. -/
theorem output_plays_frames_stereo :
    let r := (OutputStream.new 3 0).callbacks (fun (k : ℚ) _ => (fun i => k + i, k + 3)) id 2
      [List.replicate 4 0, List.replicate 10 0]
    r.1.dropped = 0 ∧ r.1.pending.len < 3 ∧
    ∃ heard, heard.length = 7 ∧ r.2.flatMap (channelOf 2 0) = heard ∧ r.2.flatMap (channelOf 2 1) = heard := by
  obtain ⟨h1, h2, ⟨heard, -, h3, h4⟩, -⟩ := output_plays_frames (n := 3) (by decide)
    (fun (k : ℚ) _ => (fun i => k + i, k + 3)) id 0 [List.replicate 4 0, List.replicate 10 0]
    (show ∀ data ∈ [List.replicate 4 (0 : ℚ), List.replicate 10 0], data.length / 2 ≤ 65536 by decide)
  refine ⟨h1, h2, heard, h3, ?_, ?_⟩
  · rw [h4 0 (by decide), List.map_id]
  · rw [h4 1 (by decide), List.map_id]

end OnlineJam
