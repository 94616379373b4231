import OnlineJam.Audio.Codec
import OnlineJam.Core.JamSpec
import Mathlib.Tactic.FieldSimp
import Mathlib.Tactic.Linarith
import Mathlib.Tactic.NormNum
import Mathlib.Tactic.Positivity
import Mathlib.Tactic.Ring

/-!
# Proofs: 16-bit PCM

A sample is cut off toward zero to one of the steps of an `i16`; the two bytes of the step bring it over
unchanged. So a frame comes out at most one step quieter than it went in, and never louder.
-/

namespace OnlineJam

variable {n : Nat}

/-! ## Bytes -/

theorem sampleS16_bytesS16 (v : Int16) :
    sampleS16 v.toUInt16.toUInt8 (v.toUInt16 >>> 8).toUInt8 = v.toInt / 32767 := by
  have hbytes : v.toUInt16.toUInt8.toNat + (v.toUInt16 >>> 8).toUInt8.toNat * 256 = v.toUInt16.toNat := by
    have hlt := v.toUInt16.toNat_lt
    rw [UInt16.toNat_toUInt8, UInt16.toNat_toUInt8, UInt16.toNat_shiftRight, Nat.shiftRight_eq_div_pow]
    simp only [UInt16.reduceToNat, Nat.reduceMod, Nat.reducePow]
    omega
  rw [sampleS16, hbytes, UInt16.ofNat_toNat, Int16.toInt16_toUInt16]

theorem length_flatMap_bytesS16 (vs : List Int16) : (vs.flatMap bytesS16).length = vs.length * 2 := by
  induction vs with
  | nil => rfl
  | cons v vs ih =>
    rw [List.flatMap_cons, List.length_append, ih, List.length_cons, bytesS16]
    simp only [List.length_cons, List.length_nil]
    omega

/-- The two bytes of a sample are found where the decoder looks for them. -/
theorem getD_flatMap_bytesS16 (vs : List Int16) {i : Nat} (hi : i < vs.length) :
    (vs.flatMap bytesS16).getD (2 * i) 0 = vs[i].toUInt16.toUInt8 ∧
    (vs.flatMap bytesS16).getD (2 * i + 1) 0 = (vs[i].toUInt16 >>> 8).toUInt8 := by
  induction vs generalizing i with
  | nil => exact absurd hi (Nat.not_lt_zero i)
  | cons v vs ih =>
    cases i with
    | zero => exact ⟨rfl, rfl⟩
    | succ i => exact ih (Nat.lt_of_succ_lt_succ hi)

/-! ## Steps -/

theorem abs_truncate_le (x : ℚ) : |(truncate x : ℚ)| ≤ |x| ∧ |x - truncate x| < 1 := by
  unfold truncate
  by_cases h : 0 ≤ x
  · rw [if_pos h]
    have hfloor : (0 : ℚ) ≤ ⌊x⌋ := Int.cast_nonneg (Int.floor_nonneg.mpr h)
    have hle := Int.floor_le x
    have hlt := Int.lt_floor_add_one x
    rw [abs_of_nonneg hfloor, abs_of_nonneg h, abs_of_nonneg (by linarith)]
    exact ⟨hle, by linarith⟩
  · rw [if_neg h]
    rw [not_le] at h
    have hceil : (⌈x⌉ : ℚ) ≤ 0 := Int.cast_nonpos.mpr (Int.ceil_le.mpr (by simpa using h.le))
    have hle := Int.le_ceil x
    have hlt := Int.ceil_lt_add_one x
    rw [abs_of_nonpos hceil, abs_of_neg h, abs_of_nonpos (by linarith)]
    exact ⟨by linarith, by linarith⟩

theorem abs_clampSample_le (x : ℚ) : |clampSample x| ≤ 1 := by
  rw [abs_le]
  exact ⟨le_max_left _ _, max_le (by norm_num) (min_le_right _ _)⟩

theorem abs_clampSample_le_abs (x : ℚ) : |clampSample x| ≤ |x| := by
  unfold clampSample
  rw [abs_le]
  have hself := le_abs_self x
  have hneg := neg_abs_le x
  constructor
  · exact le_max_of_le_right (le_min hneg (by linarith [abs_nonneg x]))
  · exact max_le (by linarith [abs_nonneg x]) ((min_le_left _ _).trans hself)

theorem clampSample_eq {x : ℚ} (h : |x| ≤ 1) : clampSample x = x := by
  obtain ⟨hlo, hhi⟩ := abs_le.mp h
  rw [clampSample, min_eq_left hhi, max_eq_right hlo]

/-- A clamped sample fits an `i16`. -/
theorem quantizeS16_toInt (x : ℚ) : (quantizeS16 x).toInt = truncate (clampSample x * 32767) := by
  have hle : |(truncate (clampSample x * 32767) : ℚ)| ≤ 32767 := by
    refine (abs_truncate_le _).1.trans ?_
    rw [abs_mul]
    have := abs_clampSample_le x
    norm_num
    linarith
  obtain ⟨hlo, hhi⟩ := abs_le.mp hle
  have hlo' : -32767 ≤ truncate (clampSample x * 32767) := by exact_mod_cast hlo
  have hhi' : truncate (clampSample x * 32767) ≤ 32767 := by exact_mod_cast hhi
  exact Int16.toInt_ofInt_of_le (by omega) (by omega)

/-- A sample as it arrives. -/
def roundS16 (x : ℚ) : ℚ := truncate (clampSample x * 32767) / 32767

theorem roundS16_spec (x : ℚ) : |roundS16 x - clampSample x| < 1 / 32767 ∧ |roundS16 x| ≤ |clampSample x| := by
  obtain ⟨hle, hlt⟩ := abs_truncate_le (clampSample x * 32767)
  have hpos : (0 : ℚ) < 32767 := by norm_num
  constructor
  · have hsub : roundS16 x - clampSample x =
        -((clampSample x * 32767 - truncate (clampSample x * 32767)) / 32767) := by
      rw [roundS16]
      field_simp
      ring
    rw [hsub, abs_neg, abs_div, abs_of_pos hpos]
    gcongr
  · rw [roundS16, abs_div, abs_of_pos hpos, div_le_iff₀ hpos]
    rwa [abs_mul, abs_of_pos hpos] at hle

/-- A sample at full scale arrives as it is. -/
theorem roundS16_of_full {x : ℚ} : (1 ≤ x → roundS16 x = 1) ∧ (x ≤ -1 → roundS16 x = -1) := by
  have hup : truncate 32767 = 32767 := by decide +kernel
  have hdown : truncate (-32767) = -32767 := by decide +kernel
  constructor
  · intro h
    have hclamp : clampSample x = 1 := by
      rw [clampSample, min_eq_right h]
      norm_num
    rw [roundS16, hclamp, one_mul, hup]
    norm_num
  · intro h
    have hclamp : clampSample x = -1 := max_eq_left (min_le_of_left_le h)
    rw [roundS16, hclamp, neg_one_mul, hdown]
    norm_num

/-! ## Frames -/

/-- The round trip of a frame. -/
theorem encodePcmS16_decodes (h : n * 2 ≤ maxFrameBytes) (x : Samples n) :
    ∃ payload, encodePcmS16 () x = (some payload, ()) ∧ payload.length = n * 2 ∧
      ∀ buf : Samples n, decodePcmS16 () (some payload) buf = (true, fun i => roundS16 (x i), ()) := by
  let vs := (List.ofFn x).map quantizeS16
  have hvs : vs.length = n := by rw [List.length_map, List.length_ofFn]
  have hlen : (vs.flatMap bytesS16).length = n * 2 := by rw [length_flatMap_bytesS16, hvs]
  refine ⟨vs.flatMap bytesS16, ?_, hlen, fun buf => ?_⟩
  · rw [encodePcmS16, if_neg (not_lt.mpr h), List.flatMap_map]
  · rw [decodePcmS16, if_neg (not_not.mpr hlen)]
    congr 2
    funext i
    have hi : i.val < vs.length := by rw [hvs]; exact i.isLt
    obtain ⟨hlo, hhi⟩ := getD_flatMap_bytesS16 vs hi
    have hv : vs[i.val] = quantizeS16 (x i) := by rw [List.getElem_map, List.getElem_ofFn]
    rw [hlo, hhi, sampleS16_bytesS16, hv, quantizeS16_toInt, roundS16]

theorem fits_of_le (h : n ≤ maxFrameSamples) : n * 2 ≤ maxFrameBytes := by
  change n ≤ 240 at h
  change n * 2 ≤ 1024
  omega

/-- What a session relies on. -/
theorem pcmS16_sound (h : n ≤ maxFrameSamples) : (pcmS16 (n := n)).Sound := by
  constructor
  · intro encoder x payload hencode
    obtain ⟨payload', hencode', hlen, -⟩ := encodePcmS16_decodes (fits_of_le h) x
    obtain rfl := Option.some.inj ((congrArg Prod.fst hencode').symm.trans hencode)
    change n ≤ 240 at h
    omega
  · intro encoder x payload hencode decoder pcm
    obtain ⟨payload', hencode', -, hdecode⟩ := encodePcmS16_decodes (fits_of_le h) x
    obtain rfl := Option.some.inj ((congrArg Prod.fst hencode').symm.trans hencode)
    exact congrArg Prod.fst (hdecode pcm)

theorem pcmS16_encodes (h : n ≤ maxFrameSamples) (encoder : Unit) (x : Samples n) :
    (pcmS16.encode encoder x).1.isSome = true := by
  obtain ⟨payload, hencode, -⟩ := encodePcmS16_decodes (fits_of_le h) x
  show (encodePcmS16 () x).1.isSome = true
  rw [hencode]
  rfl

/-- Every frame an engine works with makes it through the codec: at two bytes a sample, at most one step of
an `i16` quieter, never louder, and clipped at full scale. -/
theorem pcmS16_round_trip (hn : n ≤ maxFrameSamples) (x : Samples n) :
    ∃ payload y, pcmS16.encode () x = (some payload, ()) ∧ payload.length = n * 2 ∧
      (∀ buf, pcmS16.decode () (some payload) buf = (true, y, ())) ∧
      ∀ i, |y i| ≤ |x i| ∧ (|x i| ≤ 1 → |y i - x i| < 1 / 32767) ∧ (1 ≤ x i → y i = 1) ∧
        (x i ≤ -1 → y i = -1) := by
  obtain ⟨payload, hencode, hlen, hdecode⟩ := encodePcmS16_decodes (fits_of_le hn) x
  refine ⟨payload, _, hencode, hlen, hdecode, fun i => ?_⟩
  obtain ⟨hnear, hquiet⟩ := roundS16_spec (x i)
  refine ⟨hquiet.trans (abs_clampSample_le_abs (x i)), fun hx => ?_, roundS16_of_full.1, roundS16_of_full.2⟩
  rwa [clampSample_eq hx] at hnear

theorem pcmS16_round_trip_three : ∃ payload y,
    pcmS16.encode () (fun i : Fin 3 => (i.val : ℚ) / 3) = (some payload, ()) ∧ payload.length = 6 ∧
      (∀ buf, pcmS16.decode () (some payload) buf = (true, y, ())) ∧
      ∀ i : Fin 3, |y i| ≤ |(i.val : ℚ) / 3| ∧
        (|(i.val : ℚ) / 3| ≤ 1 → |y i - (i.val : ℚ) / 3| < 1 / 32767) ∧ (1 ≤ (i.val : ℚ) / 3 → y i = 1) ∧
        ((i.val : ℚ) / 3 ≤ -1 → y i = -1) :=
  pcmS16_round_trip (by decide) _

end OnlineJam
