import OnlineJam.Protocol.WireSpec

/-!
# Proofs: name truncation

`Writer::string` cuts a name at the last character boundary not above `maxNameLen`; what is left is
exactly the longest prefix of whole characters that fits.
-/

namespace OnlineJam

open OnlineJam.Lib

/-- The UTF-8 bytes of a list of characters. -/
def charBytes (cs : List Char) : Bytes := cs.flatMap String.utf8EncodeChar

@[simp] theorem charBytes_nil : charBytes [] = [] := rfl

@[simp] theorem charBytes_cons (c : Char) (cs : List Char) :
    charBytes (c :: cs) = String.utf8EncodeChar c ++ charBytes cs := rfl

theorem charBytes_append (cs ds : List Char) : charBytes (cs ++ ds) = charBytes cs ++ charBytes ds := by
  simp [charBytes]

theorem asBytes_ofList (cs : List Char) : asBytes (String.ofList cs) = charBytes cs := by
  simp [asBytes, charBytes, List.utf8Encode]

theorem asBytes_eq (s : String) : asBytes s = charBytes s.toList := by
  rw [← asBytes_ofList, String.ofList_toList]

/-! ## Boundaries inside a character -/

theorem byte_class (n : Nat) : (UInt8.ofNat n < 0x80 || 0xC0 ≤ UInt8.ofNat n) = true ↔
    n % 256 < 128 ∨ 192 ≤ n % 256 := by
  have h1 : UInt8.ofNat n < 0x80 ↔ n % 256 < 128 := by
    rw [UInt8.lt_iff_toNat_lt]; simp
  have h2 : 0xC0 ≤ UInt8.ofNat n ↔ 192 ≤ n % 256 := by
    rw [UInt8.le_iff_toNat_le]; simp
  simp [h1, h2]

theorem char_lt (c : Char) : c.val.toNat < 0x110000 := by
  rcases c.valid with h | h <;> omega

theorem utf8EncodeChar_zero (c : Char) :
    ∃ b, (String.utf8EncodeChar c)[0]? = some b ∧ (b < 0x80 || 0xC0 ≤ b) = true := by
  have hc := char_lt c
  unfold String.utf8EncodeChar
  simp only
  generalize c.val.toNat = v at hc
  split_ifs with h1 h2 h3
  all_goals exact ⟨_, rfl, (byte_class _).mpr (by omega)⟩

theorem utf8EncodeChar_tail {c : Char} {i : Nat} (h0 : 0 < i) (hi : i < c.utf8Size) :
    ∃ b, (String.utf8EncodeChar c)[i]? = some b ∧ (b < 0x80 || 0xC0 ≤ b) = false := by
  rw [← String.length_utf8EncodeChar] at hi
  unfold String.utf8EncodeChar at hi ⊢
  simp only at hi ⊢
  have key : ∀ n, (UInt8.ofNat (n % 64 + 128) < 0x80 || 0xC0 ≤ UInt8.ofNat (n % 64 + 128)) = false := by
    intro n
    rw [Bool.eq_false_iff, Ne, byte_class]
    omega
  generalize c.val.toNat = v at hi ⊢
  split_ifs at hi ⊢ with h1 h2 h3 <;> simp only [List.length_cons, List.length_nil] at hi
  · omega
  · obtain rfl : i = 1 := by omega
    exact ⟨_, rfl, key _⟩
  · obtain rfl | rfl : i = 1 ∨ i = 2 := by omega
    · exact ⟨_, rfl, key _⟩
    · exact ⟨_, rfl, key _⟩
  · obtain rfl | rfl | rfl : i = 1 ∨ i = 2 ∨ i = 3 := by omega
    · exact ⟨_, rfl, key _⟩
    · exact ⟨_, rfl, key _⟩
    · exact ⟨_, rfl, key _⟩

/-! ## The longest prefix that fits -/

theorem fitChars_isPrefix (n : Nat) (cs : List Char) : fitChars n cs <+: cs := by
  induction cs generalizing n with
  | nil => exact List.prefix_rfl
  | cons c cs ih =>
    simp only [fitChars]
    split_ifs with h
    · exact List.cons_prefix_cons.mpr ⟨rfl, ih _⟩
    · exact List.nil_prefix

theorem fitChars_length_le (n : Nat) (cs : List Char) : (charBytes (fitChars n cs)).length ≤ n := by
  induction cs generalizing n with
  | nil => simp [fitChars]
  | cons c cs ih =>
    simp only [fitChars]
    split_ifs with h
    · have := ih (n - c.utf8Size)
      simp only [charBytes_cons, List.length_append, String.length_utf8EncodeChar]
      omega
    · simp

/-- Every prefix that fits is a prefix of the one taken. -/
theorem isPrefix_fitChars {n : Nat} {cs ds : List Char} (h : ds <+: cs)
    (hn : (charBytes ds).length ≤ n) : ds <+: fitChars n cs := by
  induction cs generalizing n ds with
  | nil => simpa [fitChars] using h
  | cons c cs ih =>
    cases ds with
    | nil => exact List.nil_prefix
    | cons d ds =>
      obtain ⟨rfl, h'⟩ := List.cons_prefix_cons.mp h
      simp only [charBytes_cons, List.length_append, String.length_utf8EncodeChar] at hn
      rw [fitChars, if_pos (by omega)]
      exact List.cons_prefix_cons.mpr ⟨rfl, ih h' (by omega)⟩

/-- The first character left out does not fit. -/
theorem fitChars_rest (n : Nat) (cs : List Char) :
    cs = fitChars n cs ∨ ∃ c rest, cs = fitChars n cs ++ c :: rest ∧
      n < (charBytes (fitChars n cs)).length + c.utf8Size := by
  induction cs generalizing n with
  | nil => exact Or.inl rfl
  | cons c cs ih =>
    simp only [fitChars]
    split_ifs with h
    · rcases ih (n - c.utf8Size) with he | ⟨d, rest, he, hd⟩
      · exact Or.inl (congrArg (c :: ·) he)
      · refine Or.inr ⟨d, rest, congrArg (c :: ·) he, ?_⟩
        simp only [charBytes_cons, List.length_append, String.length_utf8EncodeChar]
        omega
    · exact Or.inr ⟨c, cs, rfl, by simp; omega⟩

theorem fitName_longest (s : String) : LongestFit maxNameLen s (fitName s) := by
  refine ⟨?_, ?_, fun u hu hn => ?_⟩
  · rw [fitName, String.toList_ofList]; exact fitChars_isPrefix _ _
  · rw [fitName, asBytes_ofList]; exact fitChars_length_le _ _
  · rw [fitName, String.toList_ofList]
    exact isPrefix_fitChars hu (by rwa [← asBytes_eq])

/-- A name that fits is kept. -/
theorem fitName_of_le {s : String} (h : (asBytes s).length ≤ maxNameLen) : fitName s = s := by
  have h1 : s.toList <+: fitChars maxNameLen s.toList :=
    isPrefix_fitChars List.prefix_rfl (by rwa [← asBytes_eq])
  have h2 := (fitChars_isPrefix maxNameLen s.toList).eq_of_length_le h1.length_le
  rw [fitName, h2, String.ofList_toList]

theorem fitName_length_le (s : String) : (asBytes (fitName s)).length ≤ maxNameLen :=
  (fitName_longest s).2.1

/-! ## The loop of the writer -/

theorem charFloor_eq {s : String} {b m : Nat} (hb : isCharBoundary s b = true) (hbm : b ≤ m)
    (hm : ∀ i, b < i → i ≤ m → isCharBoundary s i = false) : charFloor s m = b := by
  induction m with
  | zero => rw [charFloor]; omega
  | succ m ih =>
    rw [charFloor]
    by_cases he : b = m + 1
    · rw [if_pos (he ▸ hb), he]
    · rw [if_neg (by rw [hm (m + 1) (by omega) le_rfl]; exact Bool.false_ne_true)]
      exact ih (by omega) fun i h1 h2 => hm i h1 (by omega)

/-- The end of a prefix of whole characters is a boundary. -/
theorem isCharBoundary_charBytes {s : String} {cs ds : List Char} (h : s.toList = cs ++ ds) :
    isCharBoundary s (charBytes cs).length = true := by
  have hs : asBytes s = charBytes cs ++ charBytes ds := by
    rw [asBytes_eq, h, charBytes_append]
  cases ds with
  | nil => simp [isCharBoundary, hs]
  | cons d ds =>
    obtain ⟨b, hb, hbc⟩ := utf8EncodeChar_zero d
    have hget : (asBytes s)[(charBytes cs).length]? = some b := by
      rw [hs, List.getElem?_append_right le_rfl, Nat.sub_self, charBytes_cons,
        List.getElem?_append_left (by simp [Char.utf8Size_pos]), hb]
    simp only [isCharBoundary, hget, hbc, Bool.or_true]

/-- No position strictly inside a character is a boundary. -/
theorem isCharBoundary_inside {s : String} {cs ds : List Char} {c : Char} {i : Nat}
    (h : s.toList = cs ++ c :: ds) (h1 : (charBytes cs).length < i)
    (h2 : i < (charBytes cs).length + c.utf8Size) : isCharBoundary s i = false := by
  have hs : asBytes s = charBytes cs ++ (String.utf8EncodeChar c ++ charBytes ds) := by
    rw [asBytes_eq, h, charBytes_append, charBytes_cons]
  have hlen : i < (asBytes s).length := by
    rw [hs]; simp only [List.length_append, String.length_utf8EncodeChar]; omega
  obtain ⟨b, hb, hbc⟩ := utf8EncodeChar_tail (c := c) (i := i - (charBytes cs).length) (by omega)
    (by omega)
  have hget : (asBytes s)[i]? = some b := by
    rw [hs, List.getElem?_append_right (by omega), List.getElem?_append_left
      (by rw [String.length_utf8EncodeChar]; omega), hb]
  have hi0 : (i == 0) = false := by simp; omega
  have hil : (i == (asBytes s).length) = false := by simp; omega
  simp only [isCharBoundary, hget, hbc, hi0, hil, Bool.or_false]

/-- The writer stops at the end of the longest prefix that fits. -/
theorem charFloor_fit (s : String) :
    charFloor s (min (asBytes s).length maxNameLen) = (asBytes (fitName s)).length := by
  have hfit : asBytes (fitName s) = charBytes (fitChars maxNameLen s.toList) := asBytes_ofList _
  have hle := fitChars_length_le maxNameLen s.toList
  rw [hfit]
  rcases fitChars_rest maxNameLen s.toList with he | ⟨c, rest, he, hc⟩
  · have hlen : (charBytes (fitChars maxNameLen s.toList)).length = (asBytes s).length := by
      rw [← he, asBytes_eq]
    refine charFloor_eq ?_ (by omega) (fun i h1 h2 => by omega)
    have hnil : s.toList = fitChars maxNameLen s.toList ++ [] := by rw [← he, List.append_nil]
    exact isCharBoundary_charBytes hnil
  · have hlen : (charBytes (fitChars maxNameLen s.toList)).length + c.utf8Size
        ≤ (asBytes s).length := by
      have := congrArg (fun l => (charBytes l).length) he
      simp only [charBytes_append, charBytes_cons, List.length_append,
        String.length_utf8EncodeChar, ← asBytes_eq] at this
      omega
    refine charFloor_eq (isCharBoundary_charBytes he) (by omega) fun i h1 h2 => ?_
    exact isCharBoundary_inside he h1 (by omega)

theorem slice_fitName (s : String) :
    slice (asBytes s) 0 (asBytes (fitName s)).length = some (asBytes (fitName s)) := by
  obtain ⟨ds, hds⟩ := (fitName_longest s).1
  have hs : asBytes s = asBytes (fitName s) ++ charBytes ds := by
    rw [asBytes_eq s, ← hds, charBytes_append, ← asBytes_eq]
  have hle : (asBytes (fitName s)).length ≤ (asBytes s).length := by
    rw [hs, List.length_append]; omega
  rw [slice, if_pos ⟨Nat.zero_le _, hle⟩, List.drop_zero, Nat.sub_zero]
  conv_lhs => rw [hs, List.take_left]

theorem toByteArray_eq (s : String) : (⟨(asBytes s).toArray⟩ : ByteArray) = s.toByteArray := by
  simp [asBytes]

/-- Reading back the bytes of a string. -/
theorem fromUTF8_asBytes (s : String) : String.fromUTF8? ⟨(asBytes s).toArray⟩ = some s := by
  rw [toByteArray_eq, String.fromUTF8?, dif_pos s.isValidUTF8]
  rfl

/-- What `String::from_utf8` accepts are the bytes of the string it returns. -/
theorem asBytes_of_fromUTF8 {b : Bytes} {s : String}
    (h : String.fromUTF8? ⟨b.toArray⟩ = some s) : asBytes s = b := by
  rw [String.fromUTF8?] at h
  split_ifs at h with hv
  rw [← Option.some.inj h]
  rfl

end OnlineJam
