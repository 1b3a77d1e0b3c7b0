import Mathlib.Data.List.Sort
import Mathlib.Data.List.TakeWhile
import Partitura.Text.Class

/-!
# Classes of characters that do not meet

A letter is no digit and a character of a word is no blank. Beyond ASCII the classes are tables of
ranges, and two tables in ascending order are told apart by walking through both at once (`apart`).
-/

namespace Partitura.Text

variable {rs : List (Nat × Nat)} {c : Char}

/-- A property of the characters of a given text, decided for one after another. To decide
`∀ c ∈ cs, p c` itself would run through all characters there are. -/
theorem forall_mem_of_all {p : Char → Prop} [DecidablePred p] {cs : List Char}
    (h : cs.all (fun c => decide (p c)) = true) : ∀ c ∈ cs, p c :=
  fun c hc => of_decide_eq_true (List.all_eq_true.1 h c hc)

/-- Ranges in ascending order of their starts. -/
def Ascending (rs : List (Nat × Nat)) : Prop := rs.Pairwise fun r s => r.1 ≤ s.1

/-- It is enough to compare neighbours. -/
theorem ascending_of_isChain (h : (rs.map Prod.fst).IsChain (· ≤ ·)) : Ascending rs :=
  List.pairwise_map.1 h.pairwise

/-- Whether no range of the one table meets a range of the other, both in ascending order. -/
def apart : List (Nat × Nat) → List (Nat × Nat) → Bool
  | [], _ => true
  | r :: rs, ss =>
    let later := ss.dropWhile fun s => s.2.blt r.1
    later.head?.all (fun s => r.2.blt s.1) && apart rs later

theorem inRanges_iff {n : Nat} : inRanges rs n = true ↔ ∃ r ∈ rs, r.1 ≤ n ∧ n ≤ r.2 := by
  simp [inRanges]

/-- No number lies in both of two tables that are apart. -/
theorem not_inRanges_of_apart {ss : List (Nat × Nat)} (hr : Ascending rs) (hs : Ascending ss)
    (h : apart rs ss = true) {n : Nat} (hn : inRanges rs n = true) : inRanges ss n = false := by
  induction rs generalizing ss with
  | nil => simp [inRanges] at hn
  | cons r rs ih =>
    rw [apart, Bool.and_eq_true] at h
    rw [Ascending, List.pairwise_cons] at hr
    obtain ⟨q, hq, hqn⟩ := inRanges_iff.1 hn
    have hrq : r.1 ≤ q.1 := by
      rcases List.mem_cons.1 hq with rfl | hq
      · exact le_rfl
      · exact hr.1 q hq
    rw [Bool.eq_false_iff]
    intro hc
    obtain ⟨s, hs', hsn⟩ := inRanges_iff.1 hc
    rw [← List.takeWhile_append_dropWhile (p := fun s : Nat × Nat => s.2.blt r.1) (l := ss),
      List.mem_append] at hs'
    have hlater : Ascending (ss.dropWhile fun s => s.2.blt r.1) :=
      hs.sublist (List.dropWhile_sublist _)
    rcases hs' with hs' | hs'
    · -- what lies below `r` lies below everything after it
      have : s.2 < r.1 := by simpa [Nat.blt_eq] using List.mem_takeWhile_imp hs'
      omega
    · rcases List.mem_cons.1 hq with rfl | hq
      · cases hl : ss.dropWhile fun s => s.2.blt q.1 with
        | nil => simp [hl] at hs'
        | cons s₀ t =>
          rw [hl] at hs' hlater h
          have h₀ : q.2 < s₀.1 := by simpa [Nat.blt_eq] using h.1
          have hle : s₀.1 ≤ s.1 := by
            rcases List.mem_cons.1 hs' with rfl | hs'
            · exact le_rfl
            · exact (List.pairwise_cons.1 hlater).1 s hs'
          omega
      · have := ih hr.2 hlater h.2 (inRanges_iff.2 ⟨q, hq, hqn⟩)
        rw [inRanges_iff.2 ⟨s, hs', hsn⟩] at this
        exact Bool.noConfusion this

/-- The blanks beyond ASCII, as ranges. -/
def wideBlanks : List (Nat × Nat) := (blanks.filter (128 ≤ ·)).map fun n => (n, n)

/-- Letters and digits do not meet, and neither letters nor numerals meet the blanks beyond
ASCII. -/
theorem not_inRanges_of_tables :
    ∀ p ∈ [(letterRanges, digitRanges), (letterRanges, wideBlanks), (numeralRanges, wideBlanks)],
    ∀ {n : Nat}, inRanges p.1 n = true → inRanges p.2 n = false := by
  have htables :
      ∀ p ∈ [(letterRanges, digitRanges), (letterRanges, wideBlanks), (numeralRanges, wideBlanks)],
      (p.1.map Prod.fst).IsChain (· ≤ ·) ∧ (p.2.map Prod.fst).IsChain (· ≤ ·) ∧
        apart p.1 p.2 = true := by decide +kernel
  intro p hp n hn
  obtain ⟨hfirst, hsecond, hapart⟩ := htables p hp
  exact not_inRanges_of_apart (ascending_of_isChain hfirst) (ascending_of_isChain hsecond) hapart hn

/-! ## Letters and digits -/

theorem isDigit_of_ascii (h : c.isDigit = true) : isDigit c = true := by
  have hascii : c.toNat < 128 := by
    simp only [Char.isDigit, ge_iff_le, UInt32.le_iff_toNat_le, Bool.and_eq_true, decide_eq_true_eq]
      at h
    exact lt_of_le_of_lt h.2 (by decide)
  rw [isDigit, if_pos hascii, h]

theorem not_isDigit_of_isLetter (h : isLetter c = true) : isDigit c = false := by
  rw [isLetter] at h
  rw [isDigit]
  split at h
  · next hlt =>
    have hsmall : ∀ n < 128, (Char.ofNat n).isAlpha = true → (Char.ofNat n).isDigit = false := by
      decide +kernel
    have hc := hsmall c.toNat hlt
    rw [Char.ofNat_toNat] at hc
    rw [if_pos hlt]
    exact hc h
  · next hlt =>
    rw [if_neg hlt]
    exact not_inRanges_of_tables (letterRanges, digitRanges) (by simp) h

/-! ## Words and blanks -/

theorem not_isBlank_of_isAlphanumeric (h : isAlphanumeric c = true) : isBlank c = false := by
  rw [Bool.eq_false_iff]
  intro hb
  have hb' : c.toNat ∈ blanks := by simpa [isBlank] using hb
  rw [isAlphanumeric] at h
  split at h
  · next hlt =>
    have hs : c.toNat ∈ blanks.filter (· < 128) := List.mem_filter.2 ⟨hb', by simpa using hlt⟩
    have hsmall : ∀ n ∈ blanks.filter (· < 128), (Char.ofNat n).isAlphanum = false := by decide
    have := hsmall _ hs
    rw [Char.ofNat_toNat, h] at this
    exact Bool.noConfusion this
  · next hlt =>
    have hw : inRanges wideBlanks c.toNat = true :=
      inRanges_iff.2 ⟨(c.toNat, c.toNat),
        List.mem_map.2 ⟨_, List.mem_filter.2 ⟨hb', by simpa using hlt⟩, rfl⟩, le_rfl, le_rfl⟩
    rcases Bool.or_eq_true _ _ ▸ h with h | h
    · rw [not_inRanges_of_tables (letterRanges, wideBlanks) (by simp) h] at hw
      exact Bool.noConfusion hw
    · rw [not_inRanges_of_tables (numeralRanges, wideBlanks) (by simp) h] at hw
      exact Bool.noConfusion hw

theorem isAlphanumeric_of_isLetter (h : isLetter c = true) : isAlphanumeric c = true := by
  rw [isLetter] at h
  rw [isAlphanumeric]
  split at h
  · next hlt => rw [if_pos hlt, Char.isAlphanum, h, Bool.true_or]
  · next hlt => rw [if_neg hlt, h, Bool.true_or]

theorem isWordChar_of_isLetter (h : isLetter c = true) : isWordChar c = true := by
  simp [isWordChar, isAlphanumeric_of_isLetter h]

theorem not_isBlank_of_isLetter (h : isLetter c = true) : isBlank c = false :=
  not_isBlank_of_isAlphanumeric (isAlphanumeric_of_isLetter h)

/-- A class that holds no blank is apart from them. -/
theorem not_isBlank_of_class {p : Char → Bool} (hall : ∀ n ∈ blanks, p (Char.ofNat n) = false)
    (h : p c = true) : isBlank c = false := by
  rw [Bool.eq_false_iff]
  intro hb
  have hb' : c.toNat ∈ blanks := by simpa [isBlank] using hb
  have := hall _ hb'
  rw [Char.ofNat_toNat, h] at this
  exact Bool.noConfusion this

theorem not_isBlank_of_isDigit (h : isDigit c = true) : isBlank c = false :=
  not_isBlank_of_class (by decide +kernel) h

theorem not_isBlank_of_isNameChar (h : isNameChar c = true) : isBlank c = false :=
  not_isBlank_of_class (by decide) h

theorem not_isBlank_of_isWordChar (h : isWordChar c = true) : isBlank c = false := by
  rw [isWordChar, Bool.or_eq_true] at h
  rcases h with h | h
  · exact not_isBlank_of_isAlphanumeric h
  · rw [eq_of_beq h]
    decide

end Partitura.Text
