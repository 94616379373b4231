import OnlineJam.Proofs.BufferProofs
import Mathlib.Data.Finset.Image
import Mathlib.Data.Finset.Range

/-!
# Proofs: a jitter buffer that fills up

While nothing is read, the newest number only moves away from the read position, as far as half the ring;
there it stays, and the depth is negative.
-/

namespace OnlineJam

open OnlineJam.Lib

/-- Distance of a later number of a stream. -/
theorem ahead_add (s next : UInt16) (k : Nat) :
    (s + UInt16.ofNat k - next).toNat = ((s - next).toNat + k) % 65536 := by
  have h1 := UInt16.toNat_sub (s + UInt16.ofNat k) next
  have h2 := UInt16.toNat_sub s next
  have h3 := UInt16.toNat_add s (UInt16.ofNat k)
  have h4 : (UInt16.ofNat k).toNat = k % 65536 := UInt16.toNat_ofNat'
  have h5 := s.toNat_lt
  have h6 := next.toNat_lt
  omega

namespace JitterBuffer

/-- How far the newest number is ahead of the read position. -/
def ahead (jb : JitterBuffer) : Nat := (jb.newestSeq - jb.nextSeq).toNat

theorem depth_of_ahead {jb : JitterBuffer} (hs : jb.started = true) (h : jb.ahead ≤ 32767) :
    jb.depth = jb.ahead + 1 := by
  rw [depth, if_neg (not_not.mpr hs), diff_eq_bmod, ← ahead, Int.bmod_def]
  omega

theorem depth_of_half {jb : JitterBuffer} (hs : jb.started = true) (h : jb.ahead = 32768) :
    jb.depth = -32767 := by
  rw [depth, if_neg (not_not.mpr hs), diff_eq_bmod, ← ahead, h]
  decide

/-! ## The cursors after a push -/

/-- The cursors and the slots are those of another buffer. -/
structure SameStream (jb jb' : JitterBuffer) : Prop where
  slots : jb'.slots = jb.slots
  nextSeq : jb'.nextSeq = jb.nextSeq
  newestSeq : jb'.newestSeq = jb.newestSeq
  started : jb'.started = jb.started

theorem push_late {jb : JitterBuffer} {seq : UInt16} (hs : jb.started = true)
    (hlate : 32768 < (seq - jb.nextSeq).toNat) (timestamp : UInt32) (payload : Bytes) :
    SameStream jb (jb.push seq timestamp payload).2 := by
  by_cases hlen : maxFrameBytes < payload.length
  · rw [push, if_pos hlen]
    exact ⟨rfl, rfl, rfl, rfl⟩
  · rw [push, if_neg hlen, if_neg (not_not.mpr hs), if_pos ((newerThan_iff_ahead _ _).mpr hlate)]
    exact ⟨rfl, rfl, rfl, rfl⟩

theorem push_first {jb : JitterBuffer} (hs : jb.started = false) (seq : UInt16) (timestamp : UInt32)
    {payload : Bytes} (hlen : payload.length ≤ maxFrameBytes) :
    (jb.push seq timestamp payload).2.started = true ∧
    (jb.push seq timestamp payload).2.nextSeq = seq ∧
    (jb.push seq timestamp payload).2.ahead = 0 := by
  rw [push, if_neg (Nat.not_lt.mpr hlen), if_pos (by rw [hs]; exact Bool.false_ne_true), ahead,
    store_started, store_nextSeq, store_newestSeq, UInt16.sub_self]
  exact ⟨rfl, rfl, rfl⟩

theorem push_near {jb : JitterBuffer} {seq : UInt16} (hs : jb.started = true)
    (hnear : (seq - jb.nextSeq).toNat ≤ 32768) (timestamp : UInt32) {payload : Bytes}
    (hlen : payload.length ≤ maxFrameBytes) :
    (jb.push seq timestamp payload).2.started = true ∧
    (jb.push seq timestamp payload).2.nextSeq = jb.nextSeq ∧
    (jb.push seq timestamp payload).2.newestSeq =
      if newerThan seq jb.newestSeq then seq else jb.newestSeq := by
  have hlate : ¬ newerThan jb.nextSeq seq = true := by
    rw [newerThan_iff_ahead]
    omega
  rw [push, if_neg (Nat.not_lt.mpr hlen), if_neg (not_not.mpr hs), if_neg hlate]
  split
  · rw [store_started, store_nextSeq, store_newestSeq]
    exact ⟨hs, rfl, rfl⟩
  · rw [store_started, store_nextSeq, store_newestSeq]
    exact ⟨hs, rfl, rfl⟩

theorem toNat_sub_sub (a b c : UInt16) :
    ((a - b).toNat + (b - c).toNat) % 65536 = (a - c).toNat := by
  have h1 := UInt16.toNat_sub a b
  have h2 := UInt16.toNat_sub b c
  have h3 := UInt16.toNat_sub a c
  have h4 := a.toNat_lt
  have h5 := b.toNat_lt
  have h6 := c.toNat_lt
  omega

/-- A push less than half the ring ahead moves the newest number up to it. -/
theorem push_ahead {jb : JitterBuffer} {seq : UInt16} (hs : jb.started = true)
    (hnear : (seq - jb.nextSeq).toNat ≤ 32767) (hahead : jb.ahead ≤ 32767) (timestamp : UInt32)
    {payload : Bytes} (hlen : payload.length ≤ maxFrameBytes) :
    (jb.push seq timestamp payload).2.ahead = max jb.ahead (seq - jb.nextSeq).toNat := by
  obtain ⟨-, hnext, hnew⟩ := push_near hs (Nat.le_succ_of_le hnear) timestamp hlen
  have hsum := toNat_sub_sub jb.newestSeq seq jb.nextSeq
  have hlt := (jb.newestSeq - seq).toNat_lt
  rw [ahead] at hahead
  rw [ahead, hnext, hnew, ahead]
  have hiff := newerThan_iff_ahead seq jb.newestSeq
  split
  · rename_i h
    rw [h] at hiff
    have := hiff.mp rfl
    omega
  · rename_i h
    rw [hiff] at h
    omega

/-- At half the ring nothing moves the newest number any more. -/
theorem push_half {jb : JitterBuffer} (hs : jb.started = true) (hahead : jb.ahead = 32768)
    (seq : UInt16) (timestamp : UInt32) (payload : Bytes) :
    (jb.push seq timestamp payload).2.started = true ∧
    (jb.push seq timestamp payload).2.nextSeq = jb.nextSeq ∧
    (jb.push seq timestamp payload).2.ahead = 32768 := by
  by_cases hlate : 32768 < (seq - jb.nextSeq).toNat
  · obtain ⟨-, h1, h2, h3⟩ := push_late hs hlate timestamp payload
    rw [ahead, h1, h2, h3]
    exact ⟨hs, rfl, hahead⟩
  · by_cases hlen : payload.length ≤ maxFrameBytes
    · obtain ⟨h1, h2, h3⟩ := push_near hs (Nat.le_of_not_lt hlate) timestamp hlen
      have hsum := toNat_sub_sub jb.newestSeq seq jb.nextSeq
      have hlt := (jb.newestSeq - seq).toNat_lt
      have hnot : ¬ newerThan seq jb.newestSeq = true := by
        rw [newerThan_iff_ahead]
        rw [ahead] at hahead
        omega
      rw [if_neg hnot] at h3
      exact ⟨h1, h2, by rw [ahead, h2, h3]; exact hahead⟩
    · rw [push, if_pos (Nat.not_le.mp hlen)]
      exact ⟨hs, rfl, hahead⟩

/-! ## While nothing is read -/

/-- The frames of a buffer that was not read from since it was started. -/
def Unread (jb : JitterBuffer) : Prop :=
  jb.started = true → jb.ahead ≤ 32768 ∧ ∀ i, (jb.slots i).state = .written →
    ((jb.slots i).seq - jb.nextSeq).toNat ≤ jb.ahead ∨ ((jb.slots i).seq - jb.nextSeq).toNat = 32768

theorem Unread.of_sameStream {jb jb' : JitterBuffer} (h : jb.Unread) (hj : SameStream jb jb') :
    jb'.Unread := by
  rw [Unread, ahead, hj.slots, hj.nextSeq, hj.newestSeq, hj.started]
  exact h

theorem Unread.push {jb : JitterBuffer} (h : jb.Unread) (hp : jb.Placed) (seq : UInt16)
    (f : Frame) : (jb.push seq f.timestamp f.payload).2.Unread := by
  intro _
  have hpush := jb.push_pushes seq f hp.idle
  by_cases hlen : f.payload.length ≤ maxFrameBytes
  · by_cases hs : jb.started = true
    · by_cases hlate : 32768 < (seq - jb.nextSeq).toNat
      · exact (h.of_sameStream (push_late hs hlate f.timestamp f.payload)) ‹_›
      · obtain ⟨hle, hslots⟩ := h hs
        obtain ⟨h1, h2, h3⟩ := push_near hs (Nat.le_of_not_lt hlate) f.timestamp hlen
        have hsum := toNat_sub_sub jb.newestSeq seq jb.nextSeq
        have hlt := (jb.newestSeq - seq).toNat_lt
        have hiff := newerThan_iff_ahead seq jb.newestSeq
        -- The newest number moves up to this one, unless that is half the ring away.
        have hnew : jb.ahead ≤ (jb.push seq f.timestamp f.payload).2.ahead ∧
            (jb.push seq f.timestamp f.payload).2.ahead ≤ 32768 ∧
            ((seq - jb.nextSeq).toNat ≤ (jb.push seq f.timestamp f.payload).2.ahead ∨
              (seq - jb.nextSeq).toNat = 32768) := by
          rw [ahead] at hle
          rw [ahead, ahead, h2, h3]
          split
          · rename_i hn
            rw [hn] at hiff
            have := hiff.mp rfl
            omega
          · rename_i hn
            rw [hiff] at hn
            omega
        refine ⟨hnew.2.1, fun i hi => ?_⟩
        rw [h2]
        generalize jb.push seq f.timestamp f.payload = r at hpush hnew hi ⊢
        cases hpush with
        | refuses hne hsl =>
          rw [hsl] at hi ⊢
          rcases hslots i hi with hd | hd
          · exact Or.inl (hd.trans hnew.1)
          · exact Or.inr hd
        | stores slot hout hsl hholds =>
          rw [hsl] at hi ⊢
          by_cases he : i = slotOf seq
          · rw [he, Function.update_self, hholds.seq, lowSeq_natCast]
            exact hnew.2.2
          · rw [Function.update_of_ne he] at hi ⊢
            rcases hslots i hi with hd | hd
            · exact Or.inl (hd.trans hnew.1)
            · exact Or.inr hd
    · have hs := Bool.eq_false_of_not_eq_true hs
      obtain ⟨-, h2, h3⟩ := push_first hs seq f.timestamp hlen
      refine ⟨by omega, fun i hi => ?_⟩
      rw [h2]
      generalize jb.push seq f.timestamp f.payload = r at hpush hi ⊢
      cases hpush with
      | refuses hne hsl =>
        rw [hsl] at hi
        exact absurd hi (hp.idle hs i)
      | stores slot hout hsl hholds =>
        rw [hsl] at hi ⊢
        by_cases he : i = slotOf seq
        · rw [he, Function.update_self, hholds.seq, lowSeq_natCast, UInt16.sub_self]
          exact Or.inl (Nat.zero_le _)
        · rw [Function.update_of_ne he] at hi
          exact absurd hi (hp.idle hs i)
  · rename_i hst
    rw [JitterBuffer.push, if_pos (Nat.not_le.mp hlen)] at hst ⊢
    exact h hst

/-- A buffer that is not read and not deep holds few frames. -/
theorem Unread.few {jb : JitterBuffer} (h : jb.Unread) (hp : jb.Placed) (hs : jb.started = true)
    (hahead : jb.ahead ≤ 18) (i : Fin ringSlots) (hi : (jb.slots i).state = .written) :
    i ∈ (insert 32768 (Finset.range 19)).image fun d => slotOf (jb.nextSeq + UInt16.ofNat d) := by
  obtain ⟨-, hslot, -⟩ := hp i hi
  rw [Finset.mem_image]
  refine ⟨((jb.slots i).seq - jb.nextSeq).toNat, ?_, ?_⟩
  · rw [Finset.mem_insert, Finset.mem_range]
    rcases (h hs).2 i hi with hd | hd
    · right; omega
    · exact Or.inl hd
  · rw [UInt16.ofNat_toNat, UInt16.add_comm, UInt16.sub_add_cancel, hslot]

end JitterBuffer

end OnlineJam
