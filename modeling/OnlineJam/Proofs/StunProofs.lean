import OnlineJam.App.Stun
import OnlineJam.Proofs.WireProofs

/-!
# Proofs: decoding a STUN response

Attributes of other types are skipped with their padding, so that the address attribute is found where it
stands, and nothing that a server may send is read out of range.
-/

namespace OnlineJam

open OnlineJam.Lib

/-! ## Addresses -/

theorem u32FromBe_xor (v w : UInt32) :
    u32FromBe ((u32ToBe (v ^^^ w)).zipWith (· ^^^ ·) (u32ToBe w)) = v := by
  have hbytes : (u32ToBe (v ^^^ w)).zipWith (· ^^^ ·) (u32ToBe w) = u32ToBe (v ^^^ w ^^^ w) := by
    rw [u32ToBe, u32ToBe, u32ToBe, ← toBe_xor, ← UInt32.toNat_xor]
  rw [hbytes, u32FromBe_toBe, UInt32.xor_assoc, UInt32.xor_self, UInt32.xor_zero]

theorem parseAddress_cons8 (b0 b1 b2 b3 b4 b5 b6 b7 : UInt8) (rest : Bytes) (xored : Bool) :
    parseAddress (b0 :: b1 :: b2 :: b3 :: b4 :: b5 :: b6 :: b7 :: rest) xored =
      if b1 ≠ 0x01 then throw ()
      else if xored then
        pure (.v4 (u32FromBe ([b4, b5, b6, b7].zipWith (· ^^^ ·) (u32ToBe magicCookie)))
          (u16FromBe [b2, b3] ^^^ 0x2112))
      else pure (.v4 (u32FromBe [b4, b5, b6, b7]) (u16FromBe [b2, b3])) := by
  rw [parseAddress, if_neg (by simp)]
  rfl

theorem parseAddress_ne_none (value : Bytes) (xored : Bool) : parseAddress value xored ≠ none := by
  by_cases hlen : value.length < 8
  · rw [parseAddress, if_pos hlen]
    exact Checked.some_ne_none
  · obtain ⟨b0, b1, b2, b3, b4, b5, b6, b7, rest, rfl⟩ := exists_cons8 (Nat.le_of_not_lt hlen)
    rw [parseAddress_cons8]
    split_ifs <;> exact Checked.some_ne_none

theorem parseAddress_addressValue (reserved : UInt8) (ip : UInt32) (port : UInt16) (xored : Bool) :
    parseAddress (addressValue reserved ip port) xored =
      if xored then
        pure (.v4 (u32FromBe ((u32ToBe ip).zipWith (· ^^^ ·) (u32ToBe magicCookie))) (port ^^^ 0x2112))
      else pure (.v4 ip port) := by
  obtain ⟨b2, b3, hport⟩ := List.length_eq_two.mp (u16ToBe_length port)
  obtain ⟨b4, b5, b6, b7, hip⟩ : ∃ b4 b5 b6 b7, u32ToBe ip = [b4, b5, b6, b7] := ⟨_, _, _, _, rfl⟩
  have hvalue : addressValue reserved ip port =
      reserved :: 0x01 :: b2 :: b3 :: b4 :: b5 :: b6 :: b7 :: [] := by
    rw [addressValue, hport, hip]
    rfl
  rw [hvalue, parseAddress_cons8, if_neg (by simp), ← hport, ← hip, u16FromBe_toBe, u32FromBe_toBe]

theorem parseAddress_addressAttr (xored : Bool) (reserved : UInt8) (ip : UInt32) (port : UInt16) :
    parseAddress (addressAttr xored reserved ip port).value xored = some (.ok (.v4 ip port)) := by
  cases xored with
  | false => exact parseAddress_addressValue reserved ip port false
  | true =>
    have hport : port ^^^ 0x2112 ^^^ 0x2112 = port := by
      rw [UInt16.xor_assoc, UInt16.xor_self, UInt16.xor_zero]
    refine (parseAddress_addressValue reserved (ip ^^^ magicCookie) (port ^^^ 0x2112) true).trans ?_
    rw [if_pos rfl, u32FromBe_xor, hport]
    rfl

/-! ## Attributes -/

/-- One round of the loop. -/
theorem scanAttrs_cons4 (b0 b1 b2 b3 : UInt8) (rest : Bytes) :
    scanAttrs (b0 :: b1 :: b2 :: b3 :: rest) =
      if (u16FromBe [b2, b3]).toNat ≤ rest.length then
        if u16FromBe [b0, b1] = attrXorMappedAddress then
          parseAddress (rest.take (u16FromBe [b2, b3]).toNat) true
        else if u16FromBe [b0, b1] = attrMappedAddress then
          parseAddress (rest.take (u16FromBe [b2, b3]).toNat) false
        else if ((u16FromBe [b2, b3]).toNat + 3) / 4 * 4 ≤ rest.length then
          scanAttrs (rest.drop (((u16FromBe [b2, b3]).toNat + 3) / 4 * 4))
        else throw ()
      else throw () := by
  rw [scanAttrs, dif_pos (by simp)]
  show (orReturn (slice (b0 :: b1 :: b2 :: b3 :: rest) 4 (4 + (u16FromBe [b2, b3]).toNat)) >>=
    fun value => _) = _
  generalize (u16FromBe [b2, b3]).toNat = n
  by_cases hn : n ≤ rest.length
  · rw [slice_add (by simp; omega), if_pos hn]
    have hpad : 4 + (n + 3) / 4 * 4 ≤ (b0 :: b1 :: b2 :: b3 :: rest).length ↔
        (n + 3) / 4 * 4 ≤ rest.length := by
      simp only [List.length_cons]
      omega
    have hdrop : (b0 :: b1 :: b2 :: b3 :: rest).drop (4 + (n + 3) / 4 * 4) =
        rest.drop ((n + 3) / 4 * 4) := by
      rw [← List.drop_drop]
      rfl
    simp only [hpad, hdrop]
    rfl
  · rw [slice, if_neg (by simp; omega), if_neg hn]
    rfl

/-- What the loop does with the attribute in front. -/
theorem scanAttrs_encode (a : StunAttr) (hlen : a.value.length < 2 ^ 16) (rest : Bytes) :
    scanAttrs (a.encode ++ rest) =
      if a.type = attrXorMappedAddress then parseAddress a.value true
      else if a.type = attrMappedAddress then parseAddress a.value false
      else scanAttrs rest := by
  obtain ⟨b0, b1, htype⟩ := List.length_eq_two.mp (u16ToBe_length a.type)
  obtain ⟨b2, b3, hvlen⟩ := List.length_eq_two.mp (u16ToBe_length (UInt16.ofNat a.value.length))
  have hattr : a.encode ++ rest = b0 :: b1 :: b2 :: b3 :: (a.value ++ (a.padding ++ rest)) := by
    rw [StunAttr.encode, htype, hvlen]
    simp
  have hn : (u16FromBe [b2, b3]).toNat = a.value.length := by
    rw [← hvlen, u16FromBe_toBe, UInt16.toNat_ofNat_of_lt' hlen]
  -- The padded length, as the loop computes it.
  have hpadded : (a.value.length + 3) / 4 * 4 = (a.value ++ a.padding).length := by
    have hshort := a.short
    have haligned := a.aligned
    rw [List.length_append]
    omega
  rw [hattr, scanAttrs_cons4, hn, ← htype, u16FromBe_toBe, if_pos (by simp), List.take_left,
    if_pos (c := (a.value.length + 3) / 4 * 4 ≤ _) (by rw [hpadded]; simp), hpadded,
    ← List.append_assoc, List.drop_left]

theorem scanAttrs_skip {before : List StunAttr}
    (hothers : ∀ a ∈ before, a.type ≠ attrMappedAddress ∧ a.type ≠ attrXorMappedAddress)
    (hlen : ∀ a ∈ before, a.value.length < 2 ^ 16) (rest : Bytes) :
    scanAttrs (before.flatMap StunAttr.encode ++ rest) = scanAttrs rest := by
  induction before with
  | nil => rfl
  | cons a before ih =>
    obtain ⟨hmapped, hxor⟩ := hothers a List.mem_cons_self
    rw [List.flatMap_cons, List.append_assoc, scanAttrs_encode a (hlen a List.mem_cons_self), if_neg hxor,
      if_neg hmapped]
    exact ih (fun b hb => hothers b (List.mem_cons_of_mem _ hb))
      fun b hb => hlen b (List.mem_cons_of_mem _ hb)

theorem scanAttrs_addressAttr (xored : Bool) (reserved : UInt8) (ip : UInt32) (port : UInt16)
    (rest : Bytes) :
    scanAttrs ((addressAttr xored reserved ip port).encode ++ rest) = some (.ok (.v4 ip port)) := by
  have hparse := parseAddress_addressAttr xored reserved ip port
  have hlen : (addressAttr xored reserved ip port).value.length < 2 ^ 16 := by
    cases xored <;> exact Nat.lt_of_sub_eq_succ rfl
  rw [scanAttrs_encode _ hlen]
  cases xored with
  | false => exact hparse
  | true => exact hparse

theorem exists_cons4 {d : Bytes} (h : 4 ≤ d.length) :
    ∃ b0 b1 b2 b3 rest, d = b0 :: b1 :: b2 :: b3 :: rest := by
  match d, h with
  | b0 :: b1 :: b2 :: b3 :: rest, _ => exact ⟨b0, b1, b2, b3, rest, rfl⟩

theorem scanAttrs_ne_none (attrs : Bytes) : scanAttrs attrs ≠ none := by
  induction hn : attrs.length using Nat.strong_induction_on generalizing attrs with
  | _ n ih =>
    by_cases hlen : 4 ≤ attrs.length
    · obtain ⟨b0, b1, b2, b3, rest, rfl⟩ := exists_cons4 hlen
      have hshorter : (rest.drop (((u16FromBe [b2, b3]).toNat + 3) / 4 * 4)).length < n := by
        rw [← hn, List.length_drop]
        simp only [List.length_cons]
        omega
      rw [scanAttrs_cons4]
      split_ifs
      · exact parseAddress_ne_none _ _
      · exact parseAddress_ne_none _ _
      · exact ih _ hshorter _ rfl
      · exact Checked.some_ne_none
      · exact Checked.some_ne_none
    · rw [scanAttrs, dif_neg hlen]
      exact Checked.some_ne_none

/-! ## Messages -/

theorem parseBindingResponse_cons4 (b0 b1 b2 b3 : UInt8) (rest : Bytes) :
    parseBindingResponse (b0 :: b1 :: b2 :: b3 :: rest) =
      orReturn (slice (b0 :: b1 :: b2 :: b3 :: rest) 20 (20 + (u16FromBe [b2, b3]).toNat)) >>=
        scanAttrs := rfl

theorem parseBindingResponse_ne_none {msg : Bytes} (h : 20 ≤ msg.length) :
    parseBindingResponse msg ≠ none := by
  obtain ⟨b0, b1, b2, b3, rest, rfl⟩ := exists_cons4 (Nat.le_trans (by decide) h)
  rw [parseBindingResponse_cons4]
  refine Checked.bind_ne_none ?_ fun attrs _ => scanAttrs_ne_none attrs
  cases slice (b0 :: b1 :: b2 :: b3 :: rest) 20 (20 + (u16FromBe [b2, b3]).toNat) <;>
    exact Checked.some_ne_none

/-- Whatever reaches the socket, discovery does not run out of range. -/
theorem awaitResponse_ne_none (server : SocketAddr) (txid : Bytes) (tries : Nat)
    (arriving : List (SocketAddr × Bytes)) : awaitResponse server txid tries arriving ≠ none := by
  induction tries generalizing arriving with
  | zero => exact Checked.some_ne_none
  | succ tries ih =>
    cases arriving with
    | nil => exact Checked.some_ne_none
    | cons d rest =>
      obtain ⟨src, datagram⟩ := d
      rw [awaitResponse]
      split
      · exact ih rest
      · rename_i hd
        have hlen : 20 ≤ (datagram.take 256).length := Nat.le_of_not_lt fun hlt => hd (.inr hlt)
        generalize datagram.take 256 = buf at hlen ⊢
        obtain ⟨b0, b1, b2, b3, tail, rfl⟩ := exists_cons4 (Nat.le_trans (by decide) hlen)
        rw [slice, if_pos ⟨by decide, hlen⟩]
        show (if _ then _ else _ : Checked Unit SocketAddr) ≠ none
        split
        · exact ih rest
        · exact parseBindingResponse_ne_none hlen

theorem parseBindingResponse_encode (r : BindingResponse) (trailer : Bytes) :
    parseBindingResponse (r.encode ++ trailer) = some (.ok (.v4 r.ip r.port)) := by
  have hfits : r.body.length < 2 ^ 16 := r.fits
  obtain ⟨b0, b1, htype⟩ := List.length_eq_two.mp (u16ToBe_length r.msgType)
  obtain ⟨b2, b3, hlen⟩ := List.length_eq_two.mp (u16ToBe_length (UInt16.ofNat r.body.length))
  have hn : (u16FromBe [b2, b3]).toNat = r.body.length := by
    rw [← hlen, u16FromBe_toBe, UInt16.toNat_ofNat_of_lt' hfits]
  have hhead : ([b0, b1, b2, b3] ++ r.cookieAndId.toList).length = 20 := by simp
  have hmsg : r.encode ++ trailer =
      ([b0, b1, b2, b3] ++ r.cookieAndId.toList) ++ (r.body ++ trailer) := by
    rw [BindingResponse.encode, htype, hlen]
    simp
  have hattrs : slice (r.encode ++ trailer) 20 (20 + (u16FromBe [b2, b3]).toNat) = some r.body := by
    rw [hn, slice_add, hmsg, List.drop_left' hhead, List.take_left]
    rw [hmsg, List.length_append, hhead, List.length_append]
    omega
  have hshort : ∀ a ∈ r.before, a.value.length < 2 ^ 16 := by
    intro a ha
    obtain ⟨front, back, hbefore⟩ := List.append_of_mem ha
    have hbody : r.body.length = _ := congrArg List.length (BindingResponse.body.eq_1 r)
    rw [hbefore] at hbody
    simp only [List.flatMap_append, List.flatMap_cons, List.length_append, StunAttr.encode] at hbody
    omega
  have hparse : parseBindingResponse (r.encode ++ trailer) =
      orReturn (slice (r.encode ++ trailer) 20 (20 + (u16FromBe [b2, b3]).toNat)) >>= scanAttrs := by
    rw [hmsg]
    rfl
  rw [hparse, hattrs]
  show scanAttrs r.body = _
  rw [BindingResponse.body, List.append_assoc, scanAttrs_skip r.others hshort, scanAttrs_addressAttr]

/-- A response is decoded to the address it carries, whatever attributes and bytes stand around that; and
any message with a header is decoded or rejected without running out of range. -/
theorem stun_response_decoded :
    (∀ (r : BindingResponse) (trailer : Bytes),
      parseBindingResponse (r.encode ++ trailer) = some (.ok (.v4 r.ip r.port))) ∧
    ∀ msg : Bytes, 20 ≤ msg.length → ∃ result, parseBindingResponse msg = some result :=
  ⟨parseBindingResponse_encode, fun _ h => Option.ne_none_iff_exists'.mp (parseBindingResponse_ne_none h)⟩

/-- A `SOFTWARE` attribute of five bytes, padded, before a hidden address, and two bytes of garbage. -/
def softwareResponse : BindingResponse where
  msgType := bindingResponse
  cookieAndId := #v[0x21, 0x12, 0xA4, 0x42, 1, 2, 3, 4, 5, 6, 7, 8, 9, 10, 11, 12]
  before :=
    [{ type := 0x8022, value := [0x6A, 0x61, 0x6D, 0x65, 0x64], padding := [0, 0, 0]
       aligned := ⟨2, rfl⟩, short := by decide }]
  others := by decide
  xored := true
  reserved := 0
  ip := 0xC0000201
  port := 32853
  after := [0xFF, 0xFF]
  fits := by decide

theorem stun_response_decoded_software :
    parseBindingResponse
      [0x01, 0x01, 0, 26, 0x21, 0x12, 0xA4, 0x42, 1, 2, 3, 4, 5, 6, 7, 8, 9, 10, 11, 12,
        0x80, 0x22, 0, 5, 0x6A, 0x61, 0x6D, 0x65, 0x64, 0, 0, 0,
        0, 0x20, 0, 8, 0, 1, 0xA1, 0x47, 0xE1, 0x12, 0xA6, 0x43, 0xFF, 0xFF] =
      some (.ok (.v4 0xC0000201 32853)) :=
  stun_response_decoded.1 softwareResponse []

end OnlineJam
