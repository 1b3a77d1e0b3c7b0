import Partitura.Codec.Recode
import Partitura.Lint.File
import Partitura.Proofs.Codec.Unicode
import Partitura.Proofs.Files.FileTree

/-!
# Plugin files in every coding

The coding of a plugin file is told by its first two bytes. A mark is never mistaken, since no text
in UTF-8 starts with a byte of one; and a zero byte in front is not mistaken either, unless the text
itself starts with a zero character. So a text is read back from all the codings that plugins are
written in (`readPlugin_encoded`).
-/

namespace Partitura.Lint

open Codec Files

/-! ## With a mark -/

theorem readPlugin_markedUtf16 (order : ByteOrder) (cs : List Char) :
    readPlugin (markedUtf16 order cs) = .ok cs := by
  have hread := Encoding.decode_encodeUtf16 order cs
  rw [markedUtf16, encodeUtf16_mark]
  cases order <;> exact hread

/-! ## Without a mark -/

/-- A file that starts with a zero byte and another one that is not zero. -/
def LooksWide (bs : List UInt8) : Prop := ∃ b r, bs = 0 :: b :: r ∧ b ≠ 0

theorem codingOf_of_looksWide {bs : List UInt8} (h : LooksWide bs) :
    codingOf bs = ⟨.utf16Plain .big, []⟩ := by
  obtain ⟨b, r, rfl, hb⟩ := h
  simp [codingOf, markedCoding?, hb]

theorem codingOf_of_not_looksWide {bs : List UInt8} (hmark : markedCoding? bs = none)
    (h : ¬ LooksWide bs) : codingOf bs = ⟨.utf8, []⟩ := by
  unfold codingOf
  rw [hmark]
  split
  · next heq => cases heq
  · next b r _ =>
    have hb : b = 0 := Classical.byContradiction fun hb => h ⟨b, r, rfl, hb⟩
    rw [hb]
    rfl
  · rfl

/-- The first byte of a character in UTF-8 is no byte of a mark, and zero for the zero character
only. -/
theorem exists_utf8OfChar (c : Char) :
    ∃ b r, utf8OfChar c = b :: r ∧ b.toNat < 0xF8 ∧ (b.toNat = 0 → c.toNat = 0) := by
  have hvalid := toNat_char_valid c
  simp only [utf8OfChar]
  generalize c.toNat = n at hvalid
  have hfirst : ∀ {m : Nat} (r : List UInt8), m < 0xF8 → (m = 0 → n = 0) →
      ∃ b r', byte m :: r = b :: r' ∧ b.toNat < 0xF8 ∧ (b.toNat = 0 → n = 0) := by
    intro m r hm hzero
    have hb := toNat_byte (n := m) (by omega)
    exact ⟨byte m, r, rfl, by rwa [hb], by rwa [hb]⟩
  split
  · exact hfirst _ (by omega) id
  split
  · exact hfirst _ (by omega) (by omega)
  split
  · exact hfirst _ (by omega) (by omega)
  · exact hfirst _ (by omega) (by omega)

theorem markedCoding?_eq_none {b : UInt8} (h : b.toNat < 0xF8) (r : List UInt8) :
    markedCoding? (b :: r) = none := by
  unfold markedCoding?
  split
  · next heq =>
    cases heq
    simp at h
  · next heq =>
    cases heq
    simp at h
  · rfl

theorem markedCoding?_encodeUtf8 (cs : List Char) : markedCoding? (encodeUtf8 cs) = none := by
  cases cs with
  | nil => rfl
  | cons c cs =>
    obtain ⟨b, r, hc, hb, -⟩ := exists_utf8OfChar c
    rw [encodeUtf8, List.flatMap_cons, hc]
    exact markedCoding?_eq_none hb _

/-- A file that looks wide is not read as a text that starts with a zero character. -/
theorem readPlugin_ne_of_looksWide {bs : List UInt8} (h : LooksWide bs) {c : Char}
    (hc : c.toNat = 0) (cs : List Char) : readPlugin bs ≠ .ok (c :: cs) := by
  have hcoding := codingOf_of_looksWide h
  obtain ⟨b, r, rfl, hb⟩ := h
  have hunit : unitOf .big 0 b = b.toNat := by simp [unitOf]
  have hbyte : b.toNat < 0x100 := b.toNat_lt
  have hzero : b.toNat ≠ 0 := fun h => hb (UInt8.toNat_inj.1 h)
  intro hread
  rw [readPlugin, hcoding, List.length_nil, List.drop_zero, Encoding.decode,
    decodeUtf16From_one (by omega), hunit] at hread
  cases hrest : decodeUtf16From .big (0 + 2) r with
  | error f =>
    rw [hrest] at hread
    cases hread
  | ok ds =>
    rw [hrest] at hread
    have hfirst : Char.ofNat b.toNat = c := (List.cons.inj (Except.ok.inj hread)).1
    rw [← hfirst, toNat_charOfNat (.inl (by omega))] at hc
    exact hzero hc

/-- A text is read from its bytes in UTF-8, unless it starts with a zero character and one of
another kind. -/
theorem readPlugin_encodeUtf8_iff (cs : List Char) :
    readPlugin (encodeUtf8 cs) = .ok cs ↔ ¬ LooksWide (encodeUtf8 cs) := by
  constructor
  · intro hread hwide
    cases cs with
    | nil =>
      obtain ⟨b, r, heq, -⟩ := hwide
      cases heq
    | cons c cs =>
      have hzero : c.toNat = 0 := by
        obtain ⟨b, r, hc, -, hb⟩ := exists_utf8OfChar c
        obtain ⟨b', r', heq, -⟩ := hwide
        rw [encodeUtf8, List.flatMap_cons, hc] at heq
        exact hb (by rw [(List.cons.inj heq).1]; rfl)
      exact readPlugin_ne_of_looksWide hwide hzero cs hread
  · intro hwide
    rw [readPlugin, codingOf_of_not_looksWide (markedCoding?_encodeUtf8 cs) hwide]
    exact Encoding.decode_encodeUtf8 cs

/-- In UTF-16 without a mark a text looks wide if its first character fits into one byte and is not
zero. -/
theorem readPlugin_encodeUtf16 {c : Char} (hlow : 1 ≤ c.toNat) (hhigh : c.toNat ≤ 0xFF)
    (cs : List Char) : readPlugin (encodeUtf16 .big (c :: cs)) = .ok (c :: cs) := by
  have hunits : unitsOfChar c = [c.toNat] := by rw [unitsOfChar, if_pos (by omega)]
  have hbytes : unitBytes .big c.toNat = [0, byte c.toNat] := by
    rw [unitBytes, Nat.div_eq_of_lt (by omega), Nat.mod_eq_of_lt (by omega)]
    rfl
  have hwide : LooksWide (encodeUtf16 .big (c :: cs)) := by
    refine ⟨byte c.toNat, encodeUtf16 .big cs, ?_, fun h => ?_⟩
    · rw [encodeUtf16, List.flatMap_cons, hunits, List.flatMap_singleton, hbytes]
      rfl
    · have hzero := congrArg UInt8.toNat h
      rw [toNat_byte (by omega)] at hzero
      simp at hzero
      omega
  rw [readPlugin, codingOf_of_looksWide hwide]
  exact Encoding.decode_encodeUtf16 .big (c :: cs)

/-! ## All codings -/

/-- **Plugin files are read as they were written.** Whatever the text is, it is read from its bytes
in UTF-16 with a mark, in either order, and from the file that these bytes were written to. It is
read from its bytes in UTF-8 if and only if they do not start with a zero byte and another one that
is not zero. From UTF-16 with the high byte first and without a mark it is read if its first
character is one of U+0001 to U+00FF. -/
theorem readPlugin_encoded (cs : List Char) :
    readPlugin (markedUtf16 .big cs) = .ok cs ∧
      (∀ (t t' : FileTree) (cwd : Location) (p : Pathname), t.Keeps cwd p →
        t.write cwd p (markedUtf16 .big cs) = .ok t' → ∃ bs, t'.read cwd p = .ok bs ∧
          readPlugin bs = .ok cs) ∧
      readPlugin (markedUtf16 .little cs) = .ok cs ∧
      (readPlugin (encodeUtf8 cs) = .ok cs ↔ ¬ ∃ b r, encodeUtf8 cs = 0 :: b :: r ∧ b ≠ 0) ∧
      (∀ c ∈ cs.head?, 1 ≤ c.toNat → c.toNat ≤ 0xFF →
        readPlugin (encodeUtf16 .big cs) = .ok cs) := by
  have hmarked := readPlugin_markedUtf16 .big cs
  refine ⟨hmarked, fun t t' cwd p hkeeps hwrite => ?_, readPlugin_markedUtf16 .little cs,
    readPlugin_encodeUtf8_iff cs, fun c hc hlow hhigh => ?_⟩
  · exact ⟨_, FileTree.read_of_write hkeeps hwrite, hmarked⟩
  · obtain ⟨r, rfl⟩ := List.head?_eq_some_iff.1 hc
    exact readPlugin_encodeUtf16 hlow hhigh r

/-- An accent and a character beyond the first plane, in a file and without one. -/
theorem readPlugin_encoded_clef :
    (∃ t bs, FileTree.empty.write [] ⟨0, ["a.plg"]⟩ (markedUtf16 .big "é𝄞".toList) = .ok t ∧
      t.read [] ⟨0, ["a.plg"]⟩ = .ok bs ∧
        readPlugin bs = .ok "é𝄞".toList) ∧
      readPlugin (encodeUtf8 "é𝄞".toList) = .ok "é𝄞".toList ∧
        readPlugin (encodeUtf16 .big "é𝄞".toList) = .ok "é𝄞".toList := by
  obtain ⟨-, hfile, -, hutf8, hutf16⟩ := readPlugin_encoded "é𝄞".toList
  have hkeeps : FileTree.empty.Keeps [] ⟨0, ["a.plg"]⟩ := by
    intro id hid
    cases hid
  obtain ⟨bs, hread, htext⟩ := hfile _ _ [] ⟨0, ["a.plg"]⟩ hkeeps rfl
  refine ⟨⟨_, bs, rfl, hread, htext⟩, hutf8.2 ?_, hutf16 'é' rfl (by decide) (by decide)⟩
  rintro ⟨b, r, heq, -⟩
  cases heq

end Partitura.Lint
