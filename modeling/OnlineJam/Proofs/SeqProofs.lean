import OnlineJam.Audio.Jitter

/-!
# Proofs: sequence numbers

Comparison of the sequence numbers of two positions less than half the ring apart is comparison of the
positions; the ring slots of any `ringSlots` consecutive positions are distinct.
-/

namespace OnlineJam

open OnlineJam.Lib

theorem diff_lowSeq {p q : Int} (hlo : -32768 ≤ p - q) (hhi : p - q ≤ 32767) :
    diff (lowSeq p) (lowSeq q) = p - q :=
  serial_sub_toInt (w := 16) (by decide) (by simpa using hlo) (by simp; omega)

theorem newerThan_iff (a b : UInt16) : newerThan a b = true ↔ 0 < diff a b := by
  simp [newerThan, diff, Int16.lt_iff_toInt_lt]

theorem newerThan_lowSeq {p q : Int} (hlo : -32768 ≤ p - q) (hhi : p - q ≤ 32767) :
    newerThan (lowSeq p) (lowSeq q) = true ↔ q < p := by
  rw [newerThan_iff, diff_lowSeq hlo hhi]
  omega

theorem lowSeq_add_one (p : Int) : lowSeq (p + 1) = lowSeq p + 1 :=
  UInt16.toBitVec_inj.mp (serial_add p 1)

theorem lowSeq_sub_one (p : Int) : lowSeq (p - 1) = lowSeq p - 1 :=
  UInt16.toBitVec_inj.mp (serial_sub p 1).symm

theorem lowSeq_inj {p q : Int} (hlo : -32768 ≤ p - q) (hhi : p - q ≤ 32767)
    (h : lowSeq p = lowSeq q) : p = q :=
  serial_inj (w := 16) (by decide) (by simpa using hlo) (by simp; omega)
    (UInt16.toBitVec_inj.mpr h)

theorem lowSeq_toNat (p : Int) : ((lowSeq p).toNat : Int) = p % 65536 := by
  have h : (lowSeq p).toNat = (p % (2 ^ 16 : Nat)).toNat := BitVec.toNat_ofInt p
  rw [h]
  omega

/-- Every sequence number is the number of some position. -/
theorem lowSeq_natCast (s : UInt16) : lowSeq s.toNat = s := by
  apply UInt16.toNat_inj.mp
  have h := lowSeq_toNat s.toNat
  have hlt := s.toNat_lt
  omega

theorem slotOf_lowSeq (p : Int) : ((slotOf (lowSeq p)).val : Int) = p % 64 := by
  have h := lowSeq_toNat p
  have hs : (slotOf (lowSeq p)).val = (lowSeq p).toNat % 64 := rfl
  rw [hs]
  omega

theorem slotOf_inj {p q : Int} (hlo : q < p + 64) (hhi : p < q + 64)
    (h : slotOf (lowSeq p) = slotOf (lowSeq q)) : p = q := by
  have hp := slotOf_lowSeq p
  have hq := slotOf_lowSeq q
  rw [h] at hp
  omega

/-! ## Distance ahead -/

theorem diff_eq_bmod (a b : UInt16) : diff a b = ((a - b).toNat : Int).bmod 65536 := by
  rw [diff]
  exact BitVec.toInt_eq_toNat_bmod _

/-- A number counts as passed exactly when it is more than half the ring ahead. -/
theorem newerThan_iff_ahead (next seq : UInt16) :
    newerThan next seq = true ↔ 32768 < (seq - next).toNat := by
  rw [newerThan_iff, diff_eq_bmod]
  have h1 := UInt16.toNat_sub seq next
  have h2 := UInt16.toNat_sub next seq
  have h3 := seq.toNat_lt
  have h4 := next.toNat_lt
  rw [Int.bmod_def]
  omega

theorem ahead_add_one {next seq : UInt16} (h : seq ≠ next) :
    (seq - (next + 1)).toNat + 1 = (seq - next).toNat := by
  have hne : seq.toNat ≠ next.toNat := fun he => h (UInt16.toNat_inj.mp he)
  have h1 := UInt16.toNat_sub seq next
  have h2 := UInt16.toNat_sub seq (next + 1)
  have h3 := UInt16.toNat_add next 1
  have h4 := seq.toNat_lt
  have h5 := next.toNat_lt
  have h6 : (1 : UInt16).toNat = 1 := rfl
  omega

end OnlineJam
