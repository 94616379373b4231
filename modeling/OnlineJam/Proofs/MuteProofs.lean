import OnlineJam.Proofs.MixProofs
import Mathlib.Tactic.Linarith

/-!
# Proofs: mute and solo

A smoothed gain comes to its target in a bounded number of frames and stays there. So a client who is
muted, or left out by a solo, is soon not heard at all, not even faintly.
-/

namespace OnlineJam

variable {n : Nat}

/-! ## Gain smoothing -/

namespace SmoothedGain

variable {g : SmoothedGain} {t bound : ℚ}

/-- The smoother after a list of targets. -/
def after (g : SmoothedGain) (ts : List ℚ) : SmoothedGain := ts.foldl (fun g t => (g.next t).2) g

theorem next_alpha (g : SmoothedGain) (t : ℚ) : (g.next t).2.alpha = g.alpha := rfl

theorem next_current (g : SmoothedGain) (t : ℚ) : (g.next t).2.current = (g.next t).1 := rfl

theorem after_alpha (g : SmoothedGain) (ts : List ℚ) : (g.after ts).alpha = g.alpha := by
  induction ts generalizing g with
  | nil => rfl
  | cons t ts ih => exact ih _

theorem after_concat (g : SmoothedGain) (ts : List ℚ) (t : ℚ) :
    g.after (ts ++ [t]) = ((g.after ts).next t).2 := List.foldl_concat ..

/-- What is left to the target, before it is jumped to. -/
theorem moved_sub (g : SmoothedGain) (t : ℚ) :
    g.current + (t - g.current) * g.alpha - t = (1 - g.alpha) * (g.current - t) := by ring

/-- A frame does not lead away from the target, and reaches it if little is left. -/
theorem next_near (hα : g.alpha ≤ 1) (t : ℚ) :
    |(g.next t).1 - t| ≤ (1 - g.alpha) * |g.current - t| ∧
      ((1 - g.alpha) * |g.current - t| < 1 / 10000 → (g.next t).1 = t) := by
  have hle : 0 ≤ 1 - g.alpha := by linarith
  have habs : |g.current + (t - g.current) * g.alpha - t| = (1 - g.alpha) * |g.current - t| := by
    rw [moved_sub, abs_mul, abs_of_nonneg hle]
  rw [next]
  dsimp only
  rw [habs]
  split
  · rw [sub_self, abs_zero]
    exact ⟨mul_nonneg hle (abs_nonneg _), fun _ => rfl⟩
  · rename_i hfar
    exact ⟨habs.le, fun hnear => absurd hnear hfar⟩

/-- A gain stays between bounds that the targets keep. -/
theorem next_bounds (hα0 : 0 ≤ g.alpha) (hα1 : g.alpha ≤ 1) (hg : 0 ≤ g.current ∧ g.current ≤ bound)
    (ht : 0 ≤ t ∧ t ≤ bound) : 0 ≤ (g.next t).1 ∧ (g.next t).1 ≤ bound := by
  rw [next]
  dsimp only
  split
  · exact ht
  · have hle : 0 ≤ 1 - g.alpha := by linarith
    have hsplit : g.current + (t - g.current) * g.alpha = (1 - g.alpha) * g.current + g.alpha * t := by
      ring
    rw [hsplit]
    refine ⟨add_nonneg (mul_nonneg hle hg.1) (mul_nonneg hα0 ht.1), ?_⟩
    calc (1 - g.alpha) * g.current + g.alpha * t
        ≤ (1 - g.alpha) * bound + g.alpha * bound :=
          add_le_add (mul_le_mul_of_nonneg_left hg.2 hle) (mul_le_mul_of_nonneg_left ht.2 hα0)
      _ = bound := by ring

theorem after_bounds (hα0 : 0 ≤ g.alpha) (hα1 : g.alpha ≤ 1) (hg : 0 ≤ g.current ∧ g.current ≤ bound)
    {ts : List ℚ} (hts : ∀ t ∈ ts, 0 ≤ t ∧ t ≤ bound) :
    0 ≤ (g.after ts).current ∧ (g.after ts).current ≤ bound := by
  induction ts generalizing g with
  | nil => exact hg
  | cons t ts ih =>
    exact ih hα0 hα1 (next_bounds hα0 hα1 hg (hts t List.mem_cons_self))
      fun s hs => hts s (List.mem_cons_of_mem _ hs)

theorem after_near (hα : g.alpha ≤ 1) {ts : List ℚ} (hts : ∀ s ∈ ts, s = t) :
    |(g.after ts).current - t| ≤ (1 - g.alpha) ^ ts.length * |g.current - t| := by
  induction ts using List.reverseRecOn with
  | nil =>
    rw [List.length_nil, pow_zero, one_mul]
    exact le_rfl
  | append_singleton ts s ih =>
    obtain rfl := hts s (List.mem_append_right _ (List.mem_singleton_self s))
    have hprev := ih fun r hr => hts r (List.mem_append_left _ hr)
    have hstep := (next_near (g := g.after ts) (by rw [after_alpha]; exact hα) s).1
    rw [after_alpha] at hstep
    rw [after_concat, next_current, List.length_append, List.length_singleton, pow_succ', mul_assoc]
    exact hstep.trans (mul_le_mul_of_nonneg_left hprev (by linarith))

/-- After enough frames with one target the gain is at the target. -/
theorem after_settled (hα : g.alpha ≤ 1) {ts : List ℚ} (hts : ∀ s ∈ ts, s = t) (hne : ts ≠ [])
    (hlen : (1 - g.alpha) ^ ts.length * |g.current - t| < 1 / 10000) : (g.after ts).current = t := by
  rcases List.eq_nil_or_concat ts with rfl | ⟨ts, s, rfl⟩
  · exact absurd rfl hne
  rw [List.concat_eq_append] at hts hlen ⊢
  obtain rfl := hts s (List.mem_append_right _ (List.mem_singleton_self s))
  have hprev := after_near (g := g) hα fun r hr => hts r (List.mem_append_left _ hr)
  have hstep := (next_near (g := g.after ts) (by rw [after_alpha]; exact hα) s).2
  rw [after_alpha] at hstep
  rw [after_concat, next_current]
  refine hstep (lt_of_le_of_lt ?_ hlen)
  rw [List.length_append, List.length_singleton, pow_succ', mul_assoc]
  exact mul_le_mul_of_nonneg_left hprev (by linarith)

end SmoothedGain

/-! ## A player who is left out -/

/-- This player is muted, or left out by a solo. -/
def MixInput.Excludes (x : MixInput n) (p : Fin (maxClients + 1)) : Prop :=
  x.shared.inMix p x.shared.anySolo = false

theorem MixInput.Excludes.wanted {x : MixInput n} {p : Fin (maxClients + 1)} (h : x.Excludes p) :
    x.wanted p = 0 := by
  rw [MixInput.wanted, HostMixer.gainTarget, h, if_neg Bool.false_ne_true, mul_zero]

theorem smootherAfter_eq (alpha : ℚ) (xs : List (MixInput n)) (p : Fin (maxClients + 1)) :
    smootherAfter alpha xs p = (SmoothedGain.new 1 alpha).after (xs.map fun x => x.wanted p) := by
  rw [smootherAfter, SmoothedGain.after, List.foldl_map]

/-- The gain that the user wants is between the bounds of the sliders. -/
theorem wanted_bounds {x : MixInput n} {p : Fin (maxClients + 1)} {bound : ℚ}
    (h : 0 ≤ x.shared.gains p ∧ x.shared.gains p ≤ bound) : 0 ≤ x.wanted p ∧ x.wanted p ≤ bound := by
  rw [MixInput.wanted, HostMixer.gainTarget]
  split
  · rw [mul_one]
    exact h
  · rw [mul_zero]
    exact ⟨le_rfl, h.1.trans h.2⟩

/-- The gain of a player who was left out for long enough is zero. -/
theorem smoothedGain_excluded {alpha bound : ℚ} (hα0 : 0 ≤ alpha) (hα1 : alpha ≤ 1) (hbound : 1 ≤ bound)
    {p : Fin (maxClients + 1)} {xs ys : List (MixInput n)}
    (hxs : ∀ x ∈ xs, 0 ≤ x.shared.gains p ∧ x.shared.gains p ≤ bound) (hys : ∀ y ∈ ys, y.Excludes p)
    (hlen : (1 - alpha) ^ ys.length * bound < 1 / 10000) : smoothedGain alpha (xs ++ ys) p = 0 := by
  have hne : ys ≠ [] := by
    rintro rfl
    rw [List.length_nil, pow_zero, one_mul] at hlen
    linarith
  rw [smoothedGain, smootherAfter_eq, List.map_append, SmoothedGain.after, List.foldl_append]
  show (((SmoothedGain.new 1 alpha).after _).after _).current = 0
  have htargets : ∀ t ∈ xs.map fun x => x.wanted p, 0 ≤ t ∧ t ≤ bound := by
    intro t ht
    obtain ⟨x, hx, rfl⟩ := List.mem_map.mp ht
    exact wanted_bounds (hxs x hx)
  have hpos := SmoothedGain.after_bounds (g := SmoothedGain.new 1 alpha) hα0 hα1
    (show (0 : ℚ) ≤ 1 ∧ 1 ≤ bound from ⟨zero_le_one, hbound⟩) htargets
  have halpha := SmoothedGain.after_alpha (SmoothedGain.new 1 alpha) (xs.map fun x => x.wanted p)
  generalize (SmoothedGain.new 1 alpha).after (xs.map fun x => x.wanted p) = g at hpos halpha ⊢
  rw [show (SmoothedGain.new 1 alpha).alpha = alpha from rfl] at halpha
  refine SmoothedGain.after_settled (by rw [halpha]; exact hα1) (fun t ht => ?_)
    (fun he => hne (List.map_eq_nil_iff.mp he)) ?_
  · obtain ⟨y, hy, rfl⟩ := List.mem_map.mp ht
    exact (hys y hy).wanted
  · rw [halpha, List.length_map, sub_zero, abs_of_nonneg hpos.1]
    exact lt_of_le_of_lt (mul_le_mul_of_nonneg_left hpos.2 (pow_nonneg (by linarith) _)) hlen

/-! ## Two runs -/

/-- The frames of one client do not count where its gain is zero. -/
theorem input_mul_sameBut {c : Fin maxClients} {x y : MixInput n} (h : SameBut c x y)
    {gain : Fin (maxClients + 1) → ℚ} (hgain : gain c.succ = 0) (p : Fin (maxClients + 1)) (i : Fin n) :
    x.input p i * gain p = y.input p i * gain p := by
  by_cases hp : p = c.succ
  · rw [hp, hgain, mul_zero, mul_zero]
  · have hinput : x.input p = y.input p := by
      cases p using Fin.cases with
      | zero => exact h.localIn
      | succ d => exact h.decoded d fun he => hp (by rw [he])
    rw [hinput]

namespace HostMixer

/-- Two mixers that do the same, in which one client has the gain zero. -/
structure Deaf (c : Fin maxClients) (m m' : HostMixer n) : Prop where
  echo : m.echo = false
  echo' : m'.echo = false
  monitor : m.monitor = m'.monitor
  smoothers : m.smoothers = m'.smoothers
  monitorSmoother : m.monitor = .direct → m.monitorSmoother = m'.monitorSmoother
  gain : (m.smoothers c.succ).current = 0

theorem Deaf.tick {c : Fin maxClients} {m m' : HostMixer n} (h : Deaf c m m') {x y : MixInput n}
    (hxy : SameBut c x y) (hx : x.Excludes c.succ) :
    (m.processFrame x).1 = (m'.processFrame y).1 ∧ Deaf c (m.processFrame x).2 (m'.processFrame y).2 := by
  have hwanted : x.wanted = y.wanted := by
    funext p
    rw [MixInput.wanted, MixInput.wanted, hxy.shared]
  have hpresent : x.present = y.present := by
    unfold MixInput.present
    rw [hxy.active]
  have hgain : m.gainOf x = m'.gainOf y := by
    funext p
    rw [gainOf, gainOf, h.smoothers, hwanted]
  have hstays : ((m.smoothers c.succ).next (x.wanted c.succ)).1 = 0 := by
    rw [SmoothedGain.next, hx.wanted, h.gain]
    simp
  have hterm := input_mul_sameBut hxy (show m.gainOf x c.succ = 0 from hstays)
  have hwithout : ∀ p, mixWithout x (m.gainOf x) p = mixWithout y (m.gainOf x) p := by
    intro p
    funext i
    rw [mixWithout, mixWithout, hpresent]
    exact Finset.sum_congr rfl fun q _ => by rw [hterm]
  have hmix : (m.mixed x).mix = (m'.mixed y).mix := by
    funext i
    rw [mixed_mix, mixed_mix, hpresent]
    refine Finset.sum_congr rfl fun q _ => ?_
    rw [share, share, ← hgain, hterm]
  obtain ⟨h1, h2, h3, h4⟩ := m.processFrame_state x
  obtain ⟨h1', h2', h3', h4'⟩ := m'.processFrame_state y
  have hclient : (m.processFrame x).1.clientOut = (m'.processFrame y).1.clientOut := by
    funext d
    rw [processFrame_clientOut h.echo, processFrame_clientOut h.echo', ← hgain, hxy.active, hwithout]
  have hhost : (m.processFrame x).1.hostOut = (m'.processFrame y).1.hostOut := by
    rw [processFrame_hostOut, processFrame_hostOut, ← hgain, ← h.monitor]
    cases hmode : m.monitor with
    | throughMix => exact hmix
    | off => exact hwithout 0
    | direct =>
      dsimp only
      rw [hwithout, hxy.localIn, h.monitorSmoother hmode, hxy.monitorGain]
  refine ⟨?_, h1.trans h.echo, h1'.trans h.echo', h2.trans (h.monitor.trans h2'.symm), ?_, fun hd => ?_, ?_⟩
  · cases hm : (m.processFrame x).1
    cases hm' : (m'.processFrame y).1
    rw [hm, hm'] at hclient hhost
    rw [MixOutput.mk.injEq]
    exact ⟨hclient, hhost⟩
  · funext p
    rw [h3, h3', h.smoothers, hwanted]
  · have hdirect := h2.symm.trans hd
    rw [h4 hdirect, h4' (h.monitor.symm.trans hdirect), h.monitorSmoother hdirect, hxy.monitorGain]
  · rw [h3]
    exact hstays

theorem Deaf.run {c : Fin maxClients} {m m' : HostMixer n} (h : Deaf c m m') {xs ys : List (MixInput n)}
    (hxy : List.Forall₂ (SameBut c) xs ys) (hxs : ∀ x ∈ xs, x.Excludes c.succ) :
    (m.run xs).1 = (m'.run ys).1 := by
  induction hxy generalizing m m' with
  | nil => rfl
  | cons hx _ ih =>
    obtain ⟨hout, hnext⟩ := h.tick hx (hxs _ List.mem_cons_self)
    exact congrArg₂ List.cons hout (ih hnext fun x hx => hxs x (List.mem_cons_of_mem _ hx))

end HostMixer

/-! ## Main result -/

/-- A client who has been muted, or left out by a solo, for long enough is not heard at all while that lasts:
whatever he plays, everybody gets the same frames. -/
theorem excluded_unheard (monitor : MonitorMode) {alpha bound : ℚ} (hα0 : 0 ≤ alpha) (hα1 : alpha ≤ 1)
    (hbound : 1 ≤ bound) {c : Fin maxClients} {xs ys zs zs' : List (MixInput n)}
    (hxs : ∀ x ∈ xs, 0 ≤ x.shared.gains c.succ ∧ x.shared.gains c.succ ≤ bound)
    (hys : ∀ y ∈ ys, y.Excludes c.succ) (hlen : (1 - alpha) ^ ys.length * bound < 1 / 10000)
    (hzs : ∀ z ∈ zs, z.Excludes c.succ) (hsame : List.Forall₂ (SameBut c) zs zs') :
    (((HostMixer.new false monitor alpha).run (xs ++ ys)).2.run zs).1 =
      (((HostMixer.new false monitor alpha).run (xs ++ ys)).2.run zs').1 := by
  have h := HostMixer.after_run monitor alpha (xs ++ ys)
  refine HostMixer.Deaf.run ⟨h.echo, h.echo, rfl, rfl, fun _ => rfl, ?_⟩ hsame hzs
  rw [h.smoothers]
  exact smoothedGain_excluded hα0 hα1 hbound hxs hys hlen

/-- Client 1 has been muted for 37 frames. -/
theorem excluded_unheard_muted :
    let loud : MixInput 2 :=
      { mixScenario with decoded := fun c i => if c = 1 then 1 else mixScenario.decoded c i }
    let m := ((HostMixer.new false .direct (1 / 4)).run ([] ++ List.replicate 37 mixScenario)).2
    loud.decoded 1 ≠ mixScenario.decoded 1 ∧ (m.run [mixScenario]).1 = (m.run [loud]).1 := by
  have hmuted : mixScenario.Excludes (Fin.succ 1) := rfl
  have hys : ∀ y ∈ List.replicate 37 mixScenario, y.Excludes (Fin.succ 1) :=
    fun y hy => List.eq_of_mem_replicate hy ▸ hmuted
  have hlen : (1 - 1 / 4 : ℚ) ^ (List.replicate 37 mixScenario).length * 4 < 1 / 10000 := by
    rw [List.length_replicate]
    norm_num
  refine ⟨fun h => ?_, excluded_unheard .direct (by norm_num) (by norm_num) (by norm_num)
    (fun x hx => by cases hx) hys hlen (fun z hz => List.mem_singleton.mp hz ▸ hmuted)
    (.cons ⟨rfl, rfl, rfl, rfl, fun d hd => ?_⟩ .nil)⟩
  · have hlevel := congrFun h 0
    norm_num [mixScenario] at hlevel
  · funext i
    exact (if_neg hd).symm

end OnlineJam
