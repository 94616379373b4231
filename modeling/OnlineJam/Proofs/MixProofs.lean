import OnlineJam.Core.MixSpec
import Mathlib.Data.List.FinRange
import Mathlib.Tactic.Ring

/-!
# Proofs: mix minus self

The mix of a tick is the sum of the scaled frames of the players that are there, and each scaled frame is
computed once and subtracted as it was added. The smoothers are all that a tick takes over from the one
before.
-/

namespace OnlineJam

variable {n : Nat}

namespace HostMixer

/-! ## Step 2 -/

section Mixing

variable (shared : HostShared) (anySolo : Bool)

/-- What step 2 makes of the smoother of a client. -/
def nextGain (m : HostMixer n) (c : Fin maxClients) : ℚ × SmoothedGain :=
  (m.smoothers c.succ).next (gainTarget shared anySolo c.succ)

/-- What step 2 makes of the frame of a client. -/
def scale (m : HostMixer n) (c : Fin maxClients) : Samples n :=
  fun i => m.decoded c i * ((m.nextGain shared anySolo c).1 * masterTrim)

theorem mixClient_smoothers_zero (m : HostMixer n) (c : Fin maxClients) :
    (mixClient shared anySolo m c).smoothers 0 = m.smoothers 0 := by
  simp [mixClient, Function.update_of_ne (Fin.succ_ne_zero c).symm]

theorem mixClient_smoothers_of_ne {m : HostMixer n} {c d : Fin maxClients} (hd : d ≠ c) :
    (mixClient shared anySolo m c).smoothers d.succ = m.smoothers d.succ :=
  Function.update_of_ne (fun he => hd (Fin.succ_injective _ he)) _ _

theorem mixClient_scale {m : HostMixer n} {c d : Fin maxClients} (hd : d ≠ c) :
    (mixClient shared anySolo m c).scale shared anySolo d = m.scale shared anySolo d := by
  unfold scale nextGain
  rw [mixClient_smoothers_of_ne shared anySolo hd]
  rfl

theorem mixClient_mix (m : HostMixer n) (c : Fin maxClients) (i : Fin n) :
    (mixClient shared anySolo m c).mix i =
      m.mix i + if m.lastActive c then m.scale shared anySolo c i else 0 := by
  unfold mixClient
  dsimp only
  split
  · rfl
  · rw [add_zero]

theorem mixLocal_smoothers_zero (m : HostMixer n) (localIn : Samples n) :
    (m.mixLocal shared anySolo localIn).smoothers 0 =
      ((m.smoothers 0).next (gainTarget shared anySolo 0)).2 := by simp [mixLocal]

theorem mixLocal_smoothers_succ (m : HostMixer n) (localIn : Samples n) (c : Fin maxClients) :
    (m.mixLocal shared anySolo localIn).smoothers c.succ = m.smoothers c.succ := by
  simp [mixLocal, Function.update_of_ne]

/-- Mixing some clients moves their smoothers once, scales their frames and adds those that are there. -/
structure Mixes (cs : List (Fin maxClients)) (m m' : HostMixer n) : Prop where
  host : m'.smoothers 0 = m.smoothers 0
  moved : ∀ c ∈ cs, m'.smoothers c.succ = (m.nextGain shared anySolo c).2
  unmoved : ∀ c ∉ cs, m'.smoothers c.succ = m.smoothers c.succ
  scaled : ∀ c ∈ cs, m'.scaled c = m.scale shared anySolo c
  unscaled : ∀ c ∉ cs, m'.scaled c = m.scaled c
  mix : ∀ i, m'.mix i =
    m.mix i + (cs.map fun c => if m.lastActive c then m.scale shared anySolo c i else 0).sum
  decoded : m'.decoded = m.decoded
  lastActive : m'.lastActive = m.lastActive
  scaledLocal : m'.scaledLocal = m.scaledLocal
  echo : m'.echo = m.echo
  monitor : m'.monitor = m.monitor
  monitorSmoother : m'.monitorSmoother = m.monitorSmoother

theorem Mixes.nil (m : HostMixer n) : Mixes shared anySolo [] m m where
  host := rfl
  moved := by simp
  unmoved := fun _ _ => rfl
  scaled := by simp
  unscaled := fun _ _ => rfl
  mix := by simp
  decoded := rfl
  lastActive := rfl
  scaledLocal := rfl
  echo := rfl
  monitor := rfl
  monitorSmoother := rfl

theorem Mixes.cons {cs : List (Fin maxClients)} {m m' : HostMixer n} {c : Fin maxClients}
    (hc : c ∉ cs) (h : Mixes shared anySolo cs (mixClient shared anySolo m c) m') :
    Mixes shared anySolo (c :: cs) m m' where
  host := h.host.trans (mixClient_smoothers_zero shared anySolo m c)
  moved := by
    intro d hd
    rcases List.mem_cons.mp hd with rfl | hd
    · exact (h.unmoved _ hc).trans (Function.update_self _ _ _)
    · have hne : d ≠ c := fun he => hc (he ▸ hd)
      rw [h.moved d hd, nextGain, mixClient_smoothers_of_ne shared anySolo hne]
      rfl
  unmoved := by
    intro d hd
    rw [List.mem_cons, not_or] at hd
    rw [h.unmoved d hd.2, mixClient_smoothers_of_ne shared anySolo hd.1]
  scaled := by
    intro d hd
    rcases List.mem_cons.mp hd with rfl | hd
    · exact (h.unscaled _ hc).trans (Function.update_self _ _ _)
    · have hne : d ≠ c := fun he => hc (he ▸ hd)
      rw [h.scaled d hd, mixClient_scale shared anySolo hne]
  unscaled := by
    intro d hd
    rw [List.mem_cons, not_or] at hd
    exact (h.unscaled d hd.2).trans (Function.update_of_ne hd.1 _ _)
  mix := by
    intro i
    have hrest : (cs.map fun d => if (mixClient shared anySolo m c).lastActive d then
          (mixClient shared anySolo m c).scale shared anySolo d i else 0) =
        cs.map fun d => if m.lastActive d then m.scale shared anySolo d i else 0 := by
      refine List.map_congr_left fun d hd => ?_
      have hne : d ≠ c := fun he => hc (he ▸ hd)
      rw [mixClient_scale shared anySolo hne]
      rfl
    rw [h.mix i, mixClient_mix, hrest, List.map_cons, List.sum_cons, add_assoc]
  decoded := h.decoded
  lastActive := h.lastActive
  scaledLocal := h.scaledLocal
  echo := h.echo
  monitor := h.monitor
  monitorSmoother := h.monitorSmoother

theorem mixes_foldl {cs : List (Fin maxClients)} (hcs : cs.Nodup) (m : HostMixer n) :
    Mixes shared anySolo cs m (cs.foldl (mixClient shared anySolo) m) := by
  induction cs generalizing m with
  | nil => exact .nil shared anySolo m
  | cons c cs ih =>
    obtain ⟨hc, hcs⟩ := List.nodup_cons.mp hcs
    exact .cons shared anySolo hc (ih hcs _)

end Mixing

/-! ## One tick -/

/-- The gain a player gets in a tick. -/
def gainOf (m : HostMixer n) (x : MixInput n) (p : Fin (maxClients + 1)) : ℚ :=
  ((m.smoothers p).next (x.wanted p)).1

/-- What a player puts into the mix in a tick. -/
def share (m : HostMixer n) (x : MixInput n) (p : Fin (maxClients + 1)) : Samples n :=
  fun i => x.input p i * m.gainOf x p * masterTrim

/-- The state of the mixer before the frames of a tick go out. -/
def mixed (m : HostMixer n) (x : MixInput n) : HostMixer n := (m.pull x).mixAll x.shared x.localIn

theorem mixes_mixed (m : HostMixer n) (x : MixInput n) :
    Mixes x.shared x.shared.anySolo (List.finRange maxClients)
      ((m.pull x).mixLocal x.shared x.shared.anySolo x.localIn) (m.mixed x) :=
  mixes_foldl _ _ (List.nodup_finRange _) _

theorem mixed_smoothers (m : HostMixer n) (x : MixInput n) (p : Fin (maxClients + 1)) :
    (m.mixed x).smoothers p = ((m.smoothers p).next (x.wanted p)).2 := by
  have h := m.mixes_mixed x
  cases p using Fin.cases with
  | zero => exact h.host.trans (mixLocal_smoothers_zero ..)
  | succ c =>
    rw [h.moved c (List.mem_finRange c), nextGain, mixLocal_smoothers_succ]
    rfl

theorem mixed_scaledLocal (m : HostMixer n) (x : MixInput n) :
    (m.mixed x).scaledLocal = m.share x 0 := by
  rw [(m.mixes_mixed x).scaledLocal]
  funext i
  exact (mul_assoc _ _ _).symm

/-- The scaled frame of a client that is there is what it puts into the mix. -/
theorem mixed_scaled (m : HostMixer n) (x : MixInput n) (c : Fin maxClients) (hc : x.active c = true) :
    (m.mixed x).scaled c = m.share x c.succ := by
  rw [(m.mixes_mixed x).scaled c (List.mem_finRange c)]
  funext i
  have hdec : ((m.pull x).mixLocal x.shared x.shared.anySolo x.localIn).decoded c = x.decoded c :=
    if_pos hc
  unfold scale nextGain
  rw [hdec, mixLocal_smoothers_succ]
  exact (mul_assoc _ _ _).symm

/-- The mix is the sum of what the players that are there put into it. -/
theorem mixed_mix (m : HostMixer n) (x : MixInput n) (i : Fin n) :
    (m.mixed x).mix i = ∑ p with x.present p, m.share x p i := by
  have h := m.mixes_mixed x
  have hlist : ((List.finRange maxClients).map fun c =>
        if ((m.pull x).mixLocal x.shared x.shared.anySolo x.localIn).lastActive c then
          ((m.pull x).mixLocal x.shared x.shared.anySolo x.localIn).scale x.shared x.shared.anySolo c i
        else 0) =
      (List.finRange maxClients).map fun c => if x.active c then m.share x c.succ i else 0 := by
    refine List.map_congr_left fun c _ => ?_
    by_cases hc : x.active c = true
    · rw [← h.scaled c (List.mem_finRange c), m.mixed_scaled x c hc]
      rfl
    · rw [if_neg hc]
      exact if_neg hc
  rw [h.mix i, hlist, Finset.sum_filter, Fin.sum_univ_succ, ← List.sum_ofFn, List.ofFn_eq_map]
  congr 1
  rw [if_pos (show x.present 0 = true from rfl)]
  exact (zero_add _).trans (mul_assoc _ _ _).symm

/-- Taking one player out of the mix leaves the others. -/
theorem unmix_share (m : HostMixer n) (x : MixInput n) {p : Fin (maxClients + 1)}
    (hp : x.present p = true) :
    unmixScaled (m.mixed x).mix (m.share x p) 1 = mixWithout x (m.gainOf x) p := by
  funext i
  have hsplit : (Finset.univ.filter fun q => x.present q = true) =
      insert p (Finset.univ.filter fun q => q ≠ p ∧ x.present q = true) := by
    ext q
    by_cases hq : q = p <;> simp [hq, hp]
  have hnot : p ∉ Finset.univ.filter fun q => q ≠ p ∧ x.present q = true := by simp
  rw [unmixScaled, mixed_mix, hsplit, Finset.sum_insert hnot, mul_one, add_sub_cancel_left]
  rfl

/-- What goes out to a client that is there. -/
theorem processFrame_clientOut {m : HostMixer n} (he : m.echo = false) (x : MixInput n)
    (c : Fin maxClients) : (m.processFrame x).1.clientOut c =
      if x.active c then some (mixWithout x (m.gainOf x) c.succ) else none := by
  have h := m.mixes_mixed x
  have hact : (m.mixed x).lastActive = x.active := h.lastActive
  have hecho : (m.mixed x).echo = false := h.echo.trans he
  show (m.mixed x).clientFrame c = _
  rw [clientFrame, hact, hecho]
  by_cases hc : x.active c = true
  · rw [if_pos hc, if_pos hc, m.mixed_scaled x c hc, m.unmix_share x (show x.present c.succ = true from hc)]
    rfl
  · rw [if_neg hc, if_neg hc]

/-- What the host hears: nothing of itself, but for the direct monitor. -/
theorem processFrame_hostOut (m : HostMixer n) (x : MixInput n) : (m.processFrame x).1.hostOut =
    match m.monitor with
    | .throughMix => (m.mixed x).mix
    | .off => mixWithout x (m.gainOf x) 0
    | .direct =>
      mixScaled (mixWithout x (m.gainOf x) 0) x.localIn (m.monitorSmoother.next x.monitorGain).1 := by
  have h := m.mixes_mixed x
  have hmon : (m.mixed x).monitor = m.monitor := h.monitor
  have hsm : (m.mixed x).monitorSmoother = m.monitorSmoother := h.monitorSmoother
  have hself := m.unmix_share x (show x.present 0 = true from rfl)
  rw [← m.mixed_scaledLocal x] at hself
  show ((m.mixed x).hostFrame x.localIn x.monitorGain).1 = _
  rw [hostFrame, hmon, hself, hsm]
  cases m.monitor <;> rfl

/-- What the next tick takes over. -/
theorem processFrame_state (m : HostMixer n) (x : MixInput n) :
    (m.processFrame x).2.echo = m.echo ∧ (m.processFrame x).2.monitor = m.monitor ∧
    (∀ p, (m.processFrame x).2.smoothers p = ((m.smoothers p).next (x.wanted p)).2) ∧
    (m.monitor = .direct →
      (m.processFrame x).2.monitorSmoother = (m.monitorSmoother.next x.monitorGain).2) := by
  have h := m.mixes_mixed x
  have hmon : (m.mixed x).monitor = m.monitor := h.monitor
  have hsm : (m.mixed x).monitorSmoother = m.monitorSmoother := h.monitorSmoother
  have hframe : ∀ m' : HostMixer n, (m'.hostFrame x.localIn x.monitorGain).2.echo = m'.echo ∧
      (m'.hostFrame x.localIn x.monitorGain).2.monitor = m'.monitor ∧
      (m'.hostFrame x.localIn x.monitorGain).2.smoothers = m'.smoothers ∧
      (m'.monitor = .direct → (m'.hostFrame x.localIn x.monitorGain).2.monitorSmoother =
        (m'.monitorSmoother.next x.monitorGain).2) := by
    intro m'
    rw [hostFrame]
    cases hm : m'.monitor <;> simp [hm]
  obtain ⟨h1, h2, h3, h4⟩ := hframe (m.mixed x)
  refine ⟨h1.trans h.echo, h2.trans hmon, fun p => ?_, fun hd => ?_⟩
  · exact (congrFun h3 p).trans (m.mixed_smoothers x p)
  · rw [← hsm]
    exact h4 (hmon.trans hd)

/-! ## Runs -/

theorem run_append (m : HostMixer n) (xs ys : List (MixInput n)) :
    (m.run (xs ++ ys)).2 = ((m.run xs).2.run ys).2 := by
  induction xs generalizing m with
  | nil => rfl
  | cons x xs ih => exact ih _

/-- The state after some ticks, as far as it matters to the next one. -/
structure After (mode : MonitorMode) (alpha : ℚ) (xs : List (MixInput n)) (m : HostMixer n) :
    Prop where
  echo : m.echo = false
  monitor : m.monitor = mode
  smoothers : ∀ p, m.smoothers p = smootherAfter alpha xs p
  monitorSmoother : mode = .direct →
    m.monitorSmoother = xs.foldl (fun g x => (g.next x.monitorGain).2) (SmoothedGain.new 1 alpha)

theorem after_run (monitor : MonitorMode) (alpha : ℚ) (xs : List (MixInput n)) :
    After monitor alpha xs ((new false monitor alpha).run xs).2 := by
  induction xs using List.reverseRecOn with
  | nil => exact ⟨rfl, rfl, fun _ => rfl, fun _ => rfl⟩
  | append_singleton xs x ih =>
    obtain ⟨h1, h2, h3, h4⟩ := ((new false monitor alpha).run xs).2.processFrame_state x
    rw [run_append]
    refine ⟨h1.trans ih.echo, h2.trans ih.monitor, fun p => ?_, fun hd => ?_⟩
    · rw [smootherAfter, List.foldl_append]
      exact (h3 p).trans (by rw [ih.smoothers p]; rfl)
    · rw [List.foldl_append]
      exact (h4 (ih.monitor.trans hd)).trans (by rw [ih.monitorSmoother hd]; rfl)

/-- In the tick after some others, a player gets its smoothed gain. -/
theorem After.gainOf {monitor : MonitorMode} {alpha : ℚ} {xs : List (MixInput n)} {m : HostMixer n}
    (h : After monitor alpha xs m) (x : MixInput n) :
    m.gainOf x = smoothedGain alpha (xs ++ [x]) := by
  funext p
  rw [HostMixer.gainOf, h.smoothers p, smoothedGain, smootherAfter, smootherAfter, List.foldl_append]
  rfl

/-! ## Two runs -/

/-- The same for everybody but one client, so far. -/
structure Alike (m m' : HostMixer n) : Prop where
  echo : m.echo = false
  echo' : m'.echo = false
  smoothers : m.smoothers = m'.smoothers

theorem mixWithout_sameBut {c : Fin maxClients} {x y : MixInput n} (h : SameBut c x y)
    (gain : Fin (maxClients + 1) → ℚ) : mixWithout x gain c.succ = mixWithout y gain c.succ := by
  have hpresent : x.present = y.present := by
    unfold MixInput.present
    rw [h.active]
  have hinput : ∀ p, p ≠ c.succ → x.input p = y.input p := by
    intro p hp
    cases p using Fin.cases with
    | zero => exact h.localIn
    | succ d => exact h.decoded d fun he => hp (by rw [he])
  funext i
  rw [mixWithout, mixWithout, hpresent]
  refine Finset.sum_congr rfl fun p hp => ?_
  rw [hinput p (Finset.mem_filter.mp hp).2.1]

theorem Alike.tick {m m' : HostMixer n} (h : Alike m m') {c : Fin maxClients} {x y : MixInput n}
    (hxy : SameBut c x y) :
    (m.processFrame x).1.clientOut c = (m'.processFrame y).1.clientOut c ∧
      Alike (m.processFrame x).2 (m'.processFrame y).2 := by
  have hwanted : x.wanted = y.wanted := by
    funext p
    rw [MixInput.wanted, MixInput.wanted, hxy.shared]
  have hgain : m.gainOf x = m'.gainOf y := by
    funext p
    rw [HostMixer.gainOf, HostMixer.gainOf, h.smoothers, hwanted]
  obtain ⟨h1, -, h3, -⟩ := m.processFrame_state x
  obtain ⟨h1', -, h3', -⟩ := m'.processFrame_state y
  refine ⟨?_, h1.trans h.echo, h1'.trans h.echo', ?_⟩
  · rw [processFrame_clientOut h.echo, processFrame_clientOut h.echo', hgain, hxy.active,
      mixWithout_sameBut hxy]
  · funext p
    rw [h3, h3', h.smoothers, hwanted]

/-- Two runs that differ in the frames of one client only give this client the same. -/
theorem Alike.run {m m' : HostMixer n} (h : Alike m m') {c : Fin maxClients}
    {xs ys : List (MixInput n)} (hxy : List.Forall₂ (SameBut c) xs ys) :
    (m.run xs).1.map (fun out => out.clientOut c) =
      (m'.run ys).1.map fun out => out.clientOut c := by
  induction hxy generalizing m m' with
  | nil => rfl
  | cons hx _ ih =>
    obtain ⟨hout, hnext⟩ := h.tick hx
    exact congrArg₂ List.cons hout (ih hnext)

end HostMixer

/-! ## Main result -/

/-- Without echo, a client that is there gets the sum of the others at their smoothed gains, the host
hears the sum of the clients, with its own input only through the direct monitor, and what one client
gets never depends on its own frames. -/
theorem mix_minus_self (monitor : MonitorMode) (alpha : ℚ) :
    (∀ (xs : List (MixInput n)) (x : MixInput n),
      let m := ((HostMixer.new false monitor alpha).run xs).2
      let out := (m.processFrame x).1
      let gain := smoothedGain alpha (xs ++ [x])
      (∀ c, out.clientOut c = if x.active c then some (mixWithout x gain c.succ) else none) ∧
      (monitor = .off → out.hostOut = mixWithout x gain 0) ∧
      (monitor = .direct → out.hostOut =
        fun i => mixWithout x gain 0 i + x.localIn i * smoothedMonitor alpha (xs ++ [x]))) ∧
    (∀ (c : Fin maxClients) (xs ys : List (MixInput n)), List.Forall₂ (SameBut c) xs ys →
      ((HostMixer.new false monitor alpha).run xs).1.map (fun out => out.clientOut c) =
        ((HostMixer.new false monitor alpha).run ys).1.map fun out => out.clientOut c) := by
  refine ⟨fun xs x => ?_, fun c xs ys h => HostMixer.Alike.run ⟨rfl, rfl, rfl⟩ h⟩
  have h := HostMixer.after_run monitor alpha xs
  have hhost := ((HostMixer.new false monitor alpha).run xs).2.processFrame_hostOut x
  rw [h.monitor, h.gainOf x] at hhost
  refine ⟨fun c => ?_, ?_, ?_⟩
  · rw [HostMixer.processFrame_clientOut h.echo, h.gainOf x]
  · rintro rfl
    exact hhost
  · rintro rfl
    rw [h.monitorSmoother rfl] at hhost
    rw [smoothedMonitor, List.foldl_append]
    exact hhost

/-- A host that monitors directly and two clients, one of them muted. -/
def mixScenario : MixInput 2 :=
  { active := fun c => c.val < 2
    shared := { HostShared.new 7 with muted := fun p => p.val == 2 }
    monitorGain := 1
    localIn := fun _ => 1 / 10
    decoded := fun c _ => if c = 0 then 2 / 5 else 1 / 5 }

example : (((HostMixer.new false .direct (1 / 4)).processFrame mixScenario).1.clientOut 1) =
    some fun _ => 1 / 4 := by
  decide +kernel

end OnlineJam
