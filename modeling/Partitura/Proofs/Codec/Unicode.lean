import Partitura.Codec.Encoding

/-!
# Reading back what was written

The bytes of a text in UTF-8 and in UTF-16, in either order of bytes, are read as that text. For
each form that a character can have there is one step lemma, which says what the decoder makes of
its bytes whatever follows; the text is then read character by character
(`decodeUtf8From_encodeUtf8`, `decodeUtf16From_encodeUtf16`).
-/

namespace Partitura.Codec

variable {a b c : UInt8}

/-! ## Bytes and characters -/

theorem toNat_byte {n : Nat} (h : n < 0x100) : (byte n).toNat = n := UInt8.toNat_ofNat_of_lt' h

/-- No character is a surrogate, and none is beyond the last one. -/
theorem toNat_char_valid (c : Char) : c.toNat < 0xD800 ∨ 0xDFFF < c.toNat ∧ c.toNat < 0x110000 :=
  c.valid

theorem toNat_charOfNat {n : Nat} (h : n.isValidChar) : (Char.ofNat n).toNat = n := by
  rw [Char.ofNat, dif_pos h]
  rfl

@[simp] theorem consChar_ok (c : Char) (cs : List Char) :
    consChar c.toNat (.ok cs) = .ok (c :: cs) := by
  rw [consChar, Char.ofNat_toNat]
  rfl

/-! ## UTF-8 -/

theorem isContinuation_iff : isContinuation b = true ↔ 0x80 ≤ b.toNat ∧ b.toNat < 0xC0 := by
  simp [isContinuation, UInt8.le_iff_toNat_le, UInt8.lt_iff_toNat_lt]

theorem isSecond_iff : isSecond a b = true ↔ (0x80 ≤ b.toNat ∧ b.toNat < 0xC0) ∧
    (a.toNat = 0xE0 → 0xA0 ≤ b.toNat) ∧ (a.toNat = 0xED → b.toNat < 0xA0) ∧
      (a.toNat = 0xF0 → 0x90 ≤ b.toNat) ∧ (a.toNat = 0xF4 → b.toNat < 0x90) := by
  simp [isSecond, isContinuation_iff, UInt8.le_iff_toNat_le, UInt8.lt_iff_toNat_lt,
    ← UInt8.toNat_inj]
  omega

/-- What the first byte tells: it stands alone, or starts a character of two, three or four
bytes. -/
theorem first_of_toNat (h : 0xC2 ≤ a.toNat) (h' : a.toNat ≤ 0xF4) :
    ¬ a < 0x80 ∧ (decide (a < 0xC2) || decide (0xF4 < a)) = false := by
  simp [UInt8.lt_iff_toNat_lt]
  omega

theorem decodeUtf8From_one (ha : a.toNat < 0x80) (pos : Nat) (r : List UInt8) :
    decodeUtf8From pos (a :: r) = consChar a.toNat (decodeUtf8From (pos + 1) r) := by
  have hfirst : a < 0x80 := UInt8.lt_iff_toNat_lt.2 ha
  rw [decodeUtf8From.eq_def]
  simp only [hfirst, if_true]

example : (decodeUtf8From 0 [0x68, 0x69]).toOption = some ['h', 'i'] := by decide +kernel

theorem decodeUtf8From_two (ha : 0xC2 ≤ a.toNat) (ha' : a.toNat < 0xE0)
    (hb : isSecond a b = true) (pos : Nat) (r : List UInt8) : decodeUtf8From pos (a :: b :: r) =
      consChar (a.toNat % 0x20 * 0x40 + low6 b) (decodeUtf8From (pos + 2) r) := by
  obtain ⟨hsingle, hstart⟩ := first_of_toNat ha (by omega)
  have hlength : a < 0xE0 := UInt8.lt_iff_toNat_lt.2 ha'
  rw [decodeUtf8From.eq_def]
  simp only [hsingle, hstart, hb, hlength, Bool.not_true, Bool.false_eq_true, if_false, if_true]

theorem decodeUtf8From_three (ha : 0xE0 ≤ a.toNat) (ha' : a.toNat < 0xF0) (hb : isSecond a b = true)
    (hc : isContinuation c = true) (pos : Nat) (r : List UInt8) :
    decodeUtf8From pos (a :: b :: c :: r) =
      consChar (a.toNat % 0x10 * 0x1000 + low6 b * 0x40 + low6 c) (decodeUtf8From (pos + 3) r) := by
  obtain ⟨hsingle, hstart⟩ := first_of_toNat (a := a) (by omega) (by omega)
  have hlonger : ¬ a < 0xE0 := fun h => absurd (UInt8.lt_iff_toNat_lt.1 h) (Nat.not_lt.2 ha)
  have hlength : a < 0xF0 := UInt8.lt_iff_toNat_lt.2 ha'
  rw [decodeUtf8From.eq_def]
  simp only [hsingle, hstart, hb, hlonger, hc, hlength, Bool.not_true, Bool.false_eq_true,
    if_false, if_true]

theorem decodeUtf8From_four {d : UInt8} (ha : 0xF0 ≤ a.toNat) (ha' : a.toNat ≤ 0xF4)
    (hb : isSecond a b = true) (hc : isContinuation c = true) (hd : isContinuation d = true)
    (pos : Nat) (r : List UInt8) : decodeUtf8From pos (a :: b :: c :: d :: r) =
      consChar (a.toNat % 8 * 0x40000 + low6 b * 0x1000 + low6 c * 0x40 + low6 d)
      (decodeUtf8From (pos + 4) r) := by
  obtain ⟨hsingle, hstart⟩ := first_of_toNat (a := a) (by omega) ha'
  have hlonger : ¬ a < 0xF0 := fun h => absurd (UInt8.lt_iff_toNat_lt.1 h) (Nat.not_lt.2 ha)
  have hlonger' : ¬ a < 0xE0 := fun h => hlonger (UInt8.lt_trans h (by decide))
  rw [decodeUtf8From.eq_def]
  simp only [hsingle, hstart, hb, hlonger, hlonger', hc, hd, Bool.not_true,
    Bool.false_eq_true, if_false]

/-- A character is read from its bytes, whatever follows them. -/
theorem decodeUtf8From_utf8OfChar (c : Char) (pos : Nat) (r : List UInt8) :
    ∃ pos', decodeUtf8From pos (utf8OfChar c ++ r) = consChar c.toNat (decodeUtf8From pos' r) := by
  have hvalid := toNat_char_valid c
  simp only [utf8OfChar]
  generalize c.toNat = n at hvalid
  split
  · next h =>
    have ha := toNat_byte (n := n) (by omega)
    exact ⟨pos + 1, by rw [List.singleton_append, decodeUtf8From_one (by omega), ha]⟩
  split
  · next h h' =>
    have ha := toNat_byte (n := 0xC0 + n / 0x40) (by omega)
    have hb := toNat_byte (n := 0x80 + n % 0x40) (by omega)
    refine ⟨pos + 2, ?_⟩
    rw [List.cons_append, List.singleton_append,
      decodeUtf8From_two (by omega) (by omega) (isSecond_iff.2 (by omega)), low6, ha, hb]
    congr 1
    omega
  split
  · next h h' h'' =>
    have ha := toNat_byte (n := 0xE0 + n / 0x1000) (by omega)
    have hb := toNat_byte (n := 0x80 + n / 0x40 % 0x40) (by omega)
    have hc := toNat_byte (n := 0x80 + n % 0x40) (by omega)
    refine ⟨pos + 3, ?_⟩
    rw [List.cons_append, List.cons_append, List.singleton_append,
      decodeUtf8From_three (by omega) (by omega)
      (isSecond_iff.2 (by omega)) (isContinuation_iff.2 (by omega)), low6, low6, ha, hb, hc]
    congr 1
    omega
  · next h h' h'' =>
    have ha := toNat_byte (n := 0xF0 + n / 0x40000) (by omega)
    have hb := toNat_byte (n := 0x80 + n / 0x1000 % 0x40) (by omega)
    have hc := toNat_byte (n := 0x80 + n / 0x40 % 0x40) (by omega)
    have hd := toNat_byte (n := 0x80 + n % 0x40) (by omega)
    refine ⟨pos + 4, ?_⟩
    rw [List.cons_append, List.cons_append, List.cons_append, List.singleton_append,
      decodeUtf8From_four (by omega) (by omega)
      (isSecond_iff.2 (by omega)) (isContinuation_iff.2 (by omega))
        (isContinuation_iff.2 (by omega)), low6, low6, low6, ha, hb,
      hc, hd]
    congr 1
    omega

/-- A text is read from its bytes in UTF-8. -/
theorem decodeUtf8From_encodeUtf8 (cs : List Char) (pos : Nat) :
    decodeUtf8From pos (encodeUtf8 cs) = .ok cs := by
  induction cs generalizing pos with
  | nil => rw [encodeUtf8, List.flatMap_nil, decodeUtf8From]
  | cons c cs ih =>
    obtain ⟨pos', hc⟩ := decodeUtf8From_utf8OfChar c pos (encodeUtf8 cs)
    rw [encodeUtf8, List.flatMap_cons]
    exact hc.trans (by rw [ih, consChar_ok])

/-! ## UTF-16 -/

theorem exists_unitBytes {u : Nat} (h : u < 0x10000) (order : ByteOrder) :
    ∃ a b, unitBytes order u = [a, b] ∧ unitOf order a b = u := by
  have hlow := toNat_byte (n := u % 0x100) (by omega)
  have hhigh := toNat_byte (n := u / 0x100) (by omega)
  cases order with
  | little => exact ⟨_, _, rfl, by rw [unitOf, hlow, hhigh]; omega⟩
  | big => exact ⟨_, _, rfl, by rw [unitOf, hlow, hhigh]; omega⟩

/-- A unit that is no surrogate is a character. -/
theorem decodeUtf16From_one {order : ByteOrder}
    (h : unitOf order a b < 0xD800 ∨ 0xDFFF < unitOf order a b) (pos : Nat) (r : List UInt8) :
    decodeUtf16From order pos (a :: b :: r) =
      consChar (unitOf order a b) (decodeUtf16From order (pos + 2) r) := by
  have hhigh : isHigh (unitOf order a b) = false := by simp [isHigh]; omega
  have hlow : isLow (unitOf order a b) = false := by simp [isLow]; omega
  rw [decodeUtf16From.eq_def]
  simp only [hhigh, hlow, Bool.false_eq_true, if_false]

/-- A pair of surrogates is a character. -/
theorem decodeUtf16From_two {order : ByteOrder} {d : UInt8}
    (hhigh : isHigh (unitOf order a b) = true) (hlow : isLow (unitOf order c d) = true) (pos : Nat)
    (r : List UInt8) : decodeUtf16From order pos (a :: b :: c :: d :: r) =
      consChar (0x10000 + (unitOf order a b - 0xD800) * 0x400 + (unitOf order c d - 0xDC00))
        (decodeUtf16From order (pos + 4) r) := by
  rw [decodeUtf16From.eq_def]
  simp only [hhigh, hlow, if_true]

/-- A character is read from the bytes of its units, whatever follows them. -/
theorem decodeUtf16From_unitsOfChar (order : ByteOrder) (c : Char) (pos : Nat) (r : List UInt8) :
    ∃ pos', decodeUtf16From order pos ((unitsOfChar c).flatMap (unitBytes order) ++ r) =
      consChar c.toNat (decodeUtf16From order pos' r) := by
  have hvalid := toNat_char_valid c
  simp only [unitsOfChar]
  generalize c.toNat = n at hvalid
  split
  · next h =>
    obtain ⟨x, y, hbytes, hunit⟩ := exists_unitBytes h order
    refine ⟨pos + 2, ?_⟩
    rw [List.flatMap_singleton, hbytes, List.cons_append, List.singleton_append,
      decodeUtf16From_one (by omega), hunit]
  · next h =>
    obtain ⟨x, y, hbytes, hunit⟩ :=
      exists_unitBytes (u := 0xD800 + (n - 0x10000) / 0x400) (by omega) order
    obtain ⟨z, w, hbytes', hunit'⟩ :=
      exists_unitBytes (u := 0xDC00 + (n - 0x10000) % 0x400) (by omega) order
    have hhigh : isHigh (unitOf order x y) = true := by simp [isHigh]; omega
    have hlow : isLow (unitOf order z w) = true := by simp [isLow]; omega
    have hn : 0x10000 + (unitOf order x y - 0xD800) * 0x400 + (unitOf order z w - 0xDC00) = n := by
      omega
    refine ⟨pos + 4, ?_⟩
    rw [List.flatMap_cons, List.flatMap_singleton, hbytes, hbytes']
    simp only [List.cons_append, List.nil_append]
    rw [decodeUtf16From_two hhigh hlow, hn]

/-- A text is read from its bytes in UTF-16. -/
theorem decodeUtf16From_encodeUtf16 (order : ByteOrder) (cs : List Char) (pos : Nat) :
    decodeUtf16From order pos (encodeUtf16 order cs) = .ok cs := by
  induction cs generalizing pos with
  | nil => rw [encodeUtf16, List.flatMap_nil, decodeUtf16From]
  | cons c cs ih =>
    obtain ⟨pos', hc⟩ := decodeUtf16From_unitsOfChar order c pos (encodeUtf16 order cs)
    rw [encodeUtf16, List.flatMap_cons]
    exact hc.trans (by rw [ih, consChar_ok])

/-! ## Encodings -/

namespace Encoding

/-- A text is read from its bytes in UTF-8. -/
theorem decode_encodeUtf8 (cs : List Char) : utf8.decode (encodeUtf8 cs) = .ok cs := by
  rw [decode, decodeUtf8From_encodeUtf8]
  rfl

/-- A text is read from its bytes in UTF-16 if the order of the bytes is told. -/
theorem decode_encodeUtf16 (order : ByteOrder) (cs : List Char) :
    (utf16Plain order).decode (encodeUtf16 order cs) = .ok cs := by
  rw [decode, decodeUtf16From_encodeUtf16]
  rfl

end Encoding

/-- The bytes of a mark in front of a text. -/
theorem encodeUtf16_mark (order : ByteOrder) (cs : List Char) :
    encodeUtf16 order (mark :: cs) =
      (match order with | .little => [0xFF, 0xFE] | .big => [0xFE, 0xFF]) ++
        encodeUtf16 order cs := by
  cases order <;> rfl

end Partitura.Codec
