import Partitura.Proofs.Attempts
import Partitura.Proofs.Codec.Unicode

/-!
# Reading nothing but what was written

The decoders are strict: no character is read from a form that is longer than its own, and no
surrogate stands alone. So a text that was read gives back its bytes, in UTF-8
(`encodeUtf8_of_decode`) and in UTF-16 (`encodeUtf16_of_decode`). For each form that a character can
have there is one lemma, which says that the bytes it was read from are the bytes it has.
-/

namespace Partitura.Codec

variable {b a : UInt8} {cs : List Char} {bs : List UInt8}

theorem byte_eq {n : Nat} (h : n = b.toNat) : byte n = b := by
  rw [h]
  exact UInt8.ofNat_toNat

theorem ok_of_consChar {n : Nat} {r : Except BadBytes (List Char)} (h : consChar n r = .ok cs) :
    ∃ ds, r = .ok ds ∧ cs = Char.ofNat n :: ds := by
  obtain ⟨ds, hds, heq⟩ := ok_of_map h
  exact ⟨ds, hds, heq.symm⟩

/-! ## UTF-8 -/

theorem utf8OfChar_one (ha : a.toNat < 0x80) : utf8OfChar (Char.ofNat a.toNat) = [a] := by
  have hn := toNat_charOfNat (n := a.toNat) (.inl (by omega))
  simp only [utf8OfChar, hn]
  rw [if_pos ha, byte_eq rfl]

theorem utf8OfChar_two (ha : 0xC2 ≤ a.toNat) (ha' : a.toNat < 0xE0) (hb : isSecond a b = true) :
    utf8OfChar (Char.ofNat (a.toNat % 0x20 * 0x40 + low6 b)) = [a, b] := by
  obtain ⟨hb, -⟩ := isSecond_iff.1 hb
  unfold low6
  generalize hn : a.toNat % 0x20 * 0x40 + b.toNat % 0x40 = n
  have hchar := toNat_charOfNat (n := n) (.inl (by omega))
  have hfirst : byte (0xC0 + n / 0x40) = a := byte_eq (by omega)
  have hsecond : byte (0x80 + n % 0x40) = b := byte_eq (by omega)
  simp only [utf8OfChar, hchar]
  rw [if_neg (by omega), if_pos (by omega), hfirst, hsecond]

theorem utf8OfChar_three {c : UInt8} (ha : 0xE0 ≤ a.toNat) (ha' : a.toNat < 0xF0)
    (hb : isSecond a b = true) (hc : isContinuation c = true) :
    utf8OfChar (Char.ofNat (a.toNat % 0x10 * 0x1000 + low6 b * 0x40 + low6 c)) = [a, b, c] := by
  obtain ⟨hb, hshort, hsurrogate, -, -⟩ := isSecond_iff.1 hb
  have hc := isContinuation_iff.1 hc
  unfold low6
  generalize hn : a.toNat % 0x10 * 0x1000 + b.toNat % 0x40 * 0x40 + c.toNat % 0x40 = n
  have hlong : 0x800 ≤ n := by omega
  have hvalid : n < 0xD800 ∨ 0xDFFF < n ∧ n < 0x110000 := by omega
  have hchar := toNat_charOfNat hvalid
  have hfirst : byte (0xE0 + n / 0x1000) = a := byte_eq (by omega)
  have hsecond : byte (0x80 + n / 0x40 % 0x40) = b := byte_eq (by omega)
  have hthird : byte (0x80 + n % 0x40) = c := byte_eq (by omega)
  simp only [utf8OfChar, hchar]
  rw [if_neg (by omega), if_neg (by omega), if_pos (by omega), hfirst, hsecond, hthird]

theorem utf8OfChar_four {c d : UInt8} (ha : 0xF0 ≤ a.toNat) (ha' : a.toNat ≤ 0xF4)
    (hb : isSecond a b = true) (hc : isContinuation c = true) (hd : isContinuation d = true) :
    utf8OfChar (Char.ofNat (a.toNat % 8 * 0x40000 + low6 b * 0x1000 + low6 c * 0x40 + low6 d)) =
      [a, b, c, d] := by
  obtain ⟨hb, -, -, hshort, hlast⟩ := isSecond_iff.1 hb
  have hc := isContinuation_iff.1 hc
  have hd := isContinuation_iff.1 hd
  unfold low6
  generalize hn :
      a.toNat % 8 * 0x40000 + b.toNat % 0x40 * 0x1000 + c.toNat % 0x40 * 0x40 + d.toNat % 0x40 = n
  have hlong : 0x10000 ≤ n := by omega
  have hvalid : n < 0xD800 ∨ 0xDFFF < n ∧ n < 0x110000 := by omega
  have hchar := toNat_charOfNat hvalid
  have hfirst : byte (0xF0 + n / 0x40000) = a := byte_eq (by omega)
  have hsecond : byte (0x80 + n / 0x1000 % 0x40) = b := byte_eq (by omega)
  have hthird : byte (0x80 + n / 0x40 % 0x40) = c := byte_eq (by omega)
  have hfourth : byte (0x80 + n % 0x40) = d := byte_eq (by omega)
  simp only [utf8OfChar, hchar]
  rw [if_neg (by omega), if_neg (by omega), if_neg (by omega), hfirst, hsecond, hthird, hfourth]

/-- What a first byte is that neither stands alone nor is out of place. -/
theorem toNat_of_first (h : ¬ (decide (a < 0xC2) || decide (0xF4 < a)) = true) :
    0xC2 ≤ a.toNat ∧ a.toNat ≤ 0xF4 := by
  simpa [UInt8.lt_iff_toNat_lt] using h

/-- A text that was read from UTF-8 has the bytes that it was read from. -/
theorem encodeUtf8_of_decodeUtf8From {pos : Nat} (h : decodeUtf8From pos bs = .ok cs) :
    encodeUtf8 cs = bs := by
  fun_induction decodeUtf8From pos bs generalizing cs with
  | case1 pos => cases h; rfl
  | case2 pos a r ha ih =>
    have ha := UInt8.lt_iff_toNat_lt.1 ha
    obtain ⟨ds, hds, rfl⟩ := ok_of_consChar h
    rw [encodeUtf8, List.flatMap_cons, utf8OfChar_one ha]
    exact congrArg (a :: ·) (ih hds)
  | case6 pos a _ hfirst b r hb ha ih =>
    have hb : isSecond a b = true := by simpa using hb
    have ha := UInt8.lt_iff_toNat_lt.1 ha
    obtain ⟨hlow, -⟩ := toNat_of_first hfirst
    obtain ⟨ds, hds, rfl⟩ := ok_of_consChar h
    rw [encodeUtf8, List.flatMap_cons, utf8OfChar_two hlow ha hb]
    exact congrArg (a :: b :: ·) (ih hds)
  | case9 pos a _ hfirst b hb hlonger c r hc ha ih =>
    have hb : isSecond a b = true := by simpa using hb
    have hc : isContinuation c = true := by simpa using hc
    have ha := UInt8.lt_iff_toNat_lt.1 ha
    have hlow : 0xE0 ≤ a.toNat := Nat.le_of_not_lt fun hlt => hlonger (UInt8.lt_iff_toNat_lt.2 hlt)
    obtain ⟨ds, hds, rfl⟩ := ok_of_consChar h
    rw [encodeUtf8, List.flatMap_cons, utf8OfChar_three hlow ha hb hc]
    exact congrArg (a :: b :: c :: ·) (ih hds)
  | case12 pos a _ hfirst b hb _ c hc hlonger d r hd ih =>
    have hb : isSecond a b = true := by simpa using hb
    have hc : isContinuation c = true := by simpa using hc
    have hd : isContinuation d = true := by simpa using hd
    have hlow : 0xF0 ≤ a.toNat := Nat.le_of_not_lt fun hlt => hlonger (UInt8.lt_iff_toNat_lt.2 hlt)
    obtain ⟨-, hhigh⟩ := toNat_of_first hfirst
    obtain ⟨ds, hds, rfl⟩ := ok_of_consChar h
    rw [encodeUtf8, List.flatMap_cons, utf8OfChar_four hlow hhigh hb hc hd]
    exact congrArg (a :: b :: c :: d :: ·) (ih hds)
  | _ => cases h

/-! ## UTF-16 -/

theorem unitBytes_unitOf (order : ByteOrder) (a b : UInt8) :
    unitBytes order (unitOf order a b) = [a, b] := by
  have ha := a.toNat_lt
  have hb := b.toNat_lt
  cases order with
  | little =>
    have hlow : byte ((b.toNat * 0x100 + a.toNat) % 0x100) = a := byte_eq (by omega)
    have hhigh : byte ((b.toNat * 0x100 + a.toNat) / 0x100) = b := byte_eq (by omega)
    rw [unitOf, unitBytes, hlow, hhigh]
  | big =>
    have hlow : byte ((a.toNat * 0x100 + b.toNat) % 0x100) = b := byte_eq (by omega)
    have hhigh : byte ((a.toNat * 0x100 + b.toNat) / 0x100) = a := byte_eq (by omega)
    rw [unitOf, unitBytes, hlow, hhigh]

theorem unitOf_lt (order : ByteOrder) (a b : UInt8) : unitOf order a b < 0x10000 := by
  have ha := a.toNat_lt
  have hb := b.toNat_lt
  cases order <;> simp only [unitOf] <;> omega

theorem unitsOfChar_one {u : Nat} (hu : u < 0x10000) (hhigh : ¬ isHigh u = true)
    (hlow : ¬ isLow u = true) : unitsOfChar (Char.ofNat u) = [u] := by
  simp only [isHigh, isLow, Bool.and_eq_true, decide_eq_true_eq] at hhigh hlow
  have hchar := toNat_charOfNat (n := u) (by unfold Nat.isValidChar; omega)
  simp only [unitsOfChar, hchar]
  rw [if_pos hu]

theorem unitsOfChar_two {u v : Nat} (hu : isHigh u = true) (hv : isLow v = true) :
    unitsOfChar (Char.ofNat (0x10000 + (u - 0xD800) * 0x400 + (v - 0xDC00))) = [u, v] := by
  simp only [isHigh, isLow, Bool.and_eq_true, decide_eq_true_eq] at hu hv
  generalize hn : 0x10000 + (u - 0xD800) * 0x400 + (v - 0xDC00) = n
  have hchar := toNat_charOfNat (n := n) (.inr (by omega))
  have hfirst : 0xD800 + (n - 0x10000) / 0x400 = u := by omega
  have hsecond : 0xDC00 + (n - 0x10000) % 0x400 = v := by omega
  simp only [unitsOfChar, hchar]
  rw [if_neg (by omega), hfirst, hsecond]

/-- A text that was read from UTF-16 has the bytes that it was read from. -/
theorem encodeUtf16_of_decodeUtf16From {order : ByteOrder} {pos : Nat}
    (h : decodeUtf16From order pos bs = .ok cs) : encodeUtf16 order cs = bs := by
  fun_induction decodeUtf16From order pos bs generalizing cs with
  | case1 pos => cases h; rfl
  | case3 pos a b u hu c d r v hv =>
    rename_i ih
    obtain ⟨ds, hds, rfl⟩ := ok_of_consChar h
    rw [encodeUtf16, List.flatMap_cons, unitsOfChar_two hu hv, List.flatMap_cons,
      List.flatMap_singleton, unitBytes_unitOf, unitBytes_unitOf]
    exact congrArg (a :: b :: c :: d :: ·) (ih hds)
  | case7 pos a b r u hhigh hlow =>
    rename_i ih
    obtain ⟨ds, hds, rfl⟩ := ok_of_consChar h
    rw [encodeUtf16, List.flatMap_cons, unitsOfChar_one (unitOf_lt order a b) hhigh hlow,
      List.flatMap_singleton, unitBytes_unitOf]
    exact congrArg (a :: b :: ·) (ih hds)
  | _ => cases h

/-! ## Encodings -/

namespace Encoding

theorem encodeUtf8_of_decode (h : utf8.decode bs = .ok cs) : encodeUtf8 cs = bs :=
  encodeUtf8_of_decodeUtf8From (ok_of_mapError h)

theorem encodeUtf16_of_decode {order : ByteOrder} (h : (utf16Plain order).decode bs = .ok cs) :
    encodeUtf16 order cs = bs :=
  encodeUtf16_of_decodeUtf16From (ok_of_mapError h)

end Encoding

end Partitura.Codec
