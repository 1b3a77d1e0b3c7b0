import Mathlib.Data.List.DropRight
import Partitura.Text.Trim

/-!
# Blanks at the ends of a text

What trimming does to a text: it takes away blanks at the ends and nothing else. A text is `Trimmed`
when there are none to take away, and `inked` is what is left of a text when all its blanks are
passed over, so that a change of white space is a change that keeps `inked`.
-/

namespace Partitura.Text

variable {a b cs : List Char} {c : Char}

/-- A text of blanks only. -/
def AllBlank (cs : List Char) : Prop := ∀ c ∈ cs, isBlank c = true

instance (cs : List Char) : Decidable (AllBlank cs) := List.decidableBAll (isBlank · = true) cs

/-- A text that neither starts nor ends with a blank. -/
def Trimmed (cs : List Char) : Prop :=
  (∀ c ∈ cs.head?, isBlank c = false) ∧ ∀ c ∈ cs.getLast?, isBlank c = false

/-- The characters of a text that are not blank. -/
def inked (cs : List Char) : List Char := cs.filter fun c => !isBlank c

/-! ## Texts of blanks -/

@[simp] theorem allBlank_nil : AllBlank [] := by simp [AllBlank]

@[simp] theorem allBlank_append : AllBlank (a ++ b) ↔ AllBlank a ∧ AllBlank b := by
  simp only [AllBlank, List.mem_append]
  constructor
  · exact fun h => ⟨fun c hc => h c (.inl hc), fun c hc => h c (.inr hc)⟩
  · rintro ⟨ha, hb⟩ c (hc | hc)
    · exact ha c hc
    · exact hb c hc

theorem allBlank_cons {r : List Char} : AllBlank (c :: r) ↔ isBlank c = true ∧ AllBlank r := by
  simp [AllBlank]

/-! ## Runs of characters -/

section

variable {p : Char → Bool} (ha : ∀ c ∈ a, p c = true) (hb : ∀ c ∈ b.head?, p c = false)
include ha hb

/-- A run of characters of a class is taken whole if the next character is not of the class. -/
theorem takeWhile_append_of_head : (a ++ b).takeWhile p = a := by
  rw [List.takeWhile_append_of_pos ha]
  cases b with
  | nil => simp
  | cons c r => simp [hb c rfl]

theorem dropWhile_append_of_head : (a ++ b).dropWhile p = b := by
  rw [List.dropWhile_append_of_pos ha]
  cases b with
  | nil => rfl
  | cons c r => exact List.dropWhile_cons_of_neg (by simp [hb c rfl])

end

/-! ## One end -/

theorem trimRight_eq_rdropWhile (cs : List Char) : trimRight cs = cs.rdropWhile isBlank := rfl

theorem trimLeft_append_of_allBlank (h : AllBlank a) (m : List Char) :
    trimLeft (a ++ m) = trimLeft m := by
  rw [trimLeft, List.dropWhile_append_of_pos h]
  rfl

theorem dropEnd_append {p : Char → Bool} (h : ∀ c ∈ b, p c = true) (m : List Char) :
    dropEnd p (m ++ b) = dropEnd p m := by
  rw [dropEnd, List.reverse_append,
    List.dropWhile_append_of_pos fun c hc => h c (List.mem_reverse.1 hc)]
  rfl

theorem trimRight_append_of_allBlank (m : List Char) (h : AllBlank b) :
    trimRight (m ++ b) = trimRight m :=
  dropEnd_append h m

theorem trimLeft_of_head (h : ∀ c ∈ cs.head?, isBlank c = false) : trimLeft cs = cs := by
  cases cs with
  | nil => rfl
  | cons c r => simp [trimLeft, h c rfl]

theorem dropEnd_eq_self {p : Char → Bool} (h : ∀ c ∈ cs.getLast?, p c = false) :
    dropEnd p cs = cs := by
  refine List.rdropWhile_eq_self_iff.2 fun hne => ?_
  simpa using h _ (List.getLast?_eq_some_getLast hne)

theorem trimRight_of_last (h : ∀ c ∈ cs.getLast?, isBlank c = false) : trimRight cs = cs :=
  dropEnd_eq_self h

/-- What ends in ink keeps everything before it. -/
theorem trimRight_append_of_last (a : List Char) (hne : b ≠ [])
    (h : ∀ c ∈ b.getLast?, isBlank c = false) : trimRight (a ++ b) = a ++ b := by
  refine trimRight_of_last fun c hc => h c ?_
  rwa [List.getLast?_append_of_ne_nil _ hne] at hc

/-- Only the blanks at the end of the second part are taken away, if it is not blank. -/
theorem trimRight_append_of_ink (a : List Char) (h : ¬ AllBlank b) :
    trimRight (a ++ b) = a ++ trimRight b := by
  have hne : b.reverse.dropWhile isBlank ≠ [] := by
    intro hc
    rw [List.dropWhile_eq_nil_iff] at hc
    exact h fun c hc' => hc c (List.mem_reverse.2 hc')
  rw [trimRight, trimRight, dropEnd, dropEnd, List.reverse_append, List.dropWhile_append]
  simp [hne]

theorem exists_allBlank_append_trimLeft (cs : List Char) :
    ∃ a, AllBlank a ∧ cs = a ++ trimLeft cs :=
  ⟨cs.takeWhile isBlank, fun _ hc => List.mem_takeWhile_imp hc,
    (List.takeWhile_append_dropWhile).symm⟩

theorem exists_trimRight_append_allBlank (cs : List Char) :
    ∃ b, AllBlank b ∧ cs = trimRight cs ++ b :=
  ⟨cs.rtakeWhile isBlank, fun _ hc => List.mem_rtakeWhile_imp hc,
    (List.rdropWhile_append_rtakeWhile ..).symm⟩

theorem head_trimLeft (cs : List Char) : ∀ c ∈ (trimLeft cs).head?, isBlank c = false := by
  intro c hc
  have := List.head?_dropWhile_not isBlank cs
  rw [trimLeft, Option.mem_def] at hc
  rw [hc] at this
  exact this

theorem last_trimRight (cs : List Char) : ∀ c ∈ (trimRight cs).getLast?, isBlank c = false := by
  intro c hc
  rw [trimRight_eq_rdropWhile] at hc
  have hne : cs.rdropWhile isBlank ≠ [] := by
    rintro h
    simp [h] at hc
  rw [List.getLast?_eq_some_getLast hne] at hc
  cases hc
  simpa using List.rdropWhile_last_not isBlank cs hne

/-- Blanks are taken away only up to the last character that is none. -/
theorem trimRight_append_of_left (h : ∀ c ∈ a.getLast?, isBlank c = false) (b : List Char) :
    trimRight (a ++ b) = a ++ trimRight b := by
  obtain ⟨s, hs, hb⟩ := exists_trimRight_append_allBlank b
  conv_lhs => rw [hb, ← List.append_assoc, trimRight_append_of_allBlank _ hs]
  by_cases hn : trimRight b = []
  · rw [hn, List.append_nil, trimRight_of_last h]
  · exact trimRight_append_of_last a hn (last_trimRight b)

theorem head_trimRight (h : ∀ c ∈ cs.head?, isBlank c = false) :
    ∀ c ∈ (trimRight cs).head?, isBlank c = false := by
  intro c hc
  obtain ⟨b, -, hb⟩ := exists_trimRight_append_allBlank cs
  refine h c ?_
  rw [hb, List.head?_append, hc]
  rfl

/-! ## Both ends -/

theorem trimmed_trim (cs : List Char) : Trimmed (trim cs) :=
  ⟨head_trimRight (head_trimLeft cs), last_trimRight _⟩

theorem trim_of_trimmed (h : Trimmed cs) : trim cs = cs := by
  rw [trim, trimLeft_of_head h.1, trimRight_of_last h.2]

/-- Trimming leaves the middle of a text when there are blanks on both sides of it. -/
theorem exists_trim (cs : List Char) : ∃ a b, AllBlank a ∧ AllBlank b ∧ cs = a ++ trim cs ++ b := by
  obtain ⟨a, ha, hcs⟩ := exists_allBlank_append_trimLeft cs
  obtain ⟨b, hb, hl⟩ := exists_trimRight_append_allBlank (trimLeft cs)
  refine ⟨a, b, ha, hb, ?_⟩
  rw [List.append_assoc, trim, ← hl, ← hcs]

theorem trim_eq_nil_iff : trim cs = [] ↔ AllBlank cs := by
  constructor
  · intro h
    obtain ⟨a, b, ha, hb, hcs⟩ := exists_trim cs
    rw [hcs, h, List.append_nil]
    exact allBlank_append.2 ⟨ha, hb⟩
  · intro h
    have : trimLeft cs = [] := by simpa [trimLeft] using trimLeft_append_of_allBlank h []
    rw [trim, this]
    rfl

theorem trim_append_of_allBlank (m : List Char) (h : AllBlank b) : trim (m ++ b) = trim m := by
  by_cases hm : AllBlank m
  · rw [trim_eq_nil_iff.2 hm, trim_eq_nil_iff.2 (allBlank_append.2 ⟨hm, h⟩)]
  · have : trimLeft (m ++ b) = trimLeft m ++ b := by
      have hne : m.dropWhile isBlank ≠ [] := by
        rw [Ne, List.dropWhile_eq_nil_iff]
        exact hm
      rw [trimLeft, trimLeft, List.dropWhile_append]
      simp [hne]
    rw [trim, this, trimRight_append_of_allBlank _ h, trim]

theorem trim_allBlank_append (h : AllBlank a) (m : List Char) : trim (a ++ m) = trim m := by
  rw [trim, trimLeft_append_of_allBlank h, trim]

theorem mem_of_mem_trimRight (h : c ∈ trimRight cs) : c ∈ cs := by
  obtain ⟨b, -, hcs⟩ := exists_trimRight_append_allBlank cs
  rw [hcs]
  exact List.mem_append_left b h

theorem mem_of_mem_trim (h : c ∈ trim cs) : c ∈ cs := by
  obtain ⟨a, b, -, -, hcs⟩ := exists_trim cs
  rw [hcs]
  simp [h]

theorem trim_cons (h : isBlank c = false) (r : List Char) : trim (c :: r) = c :: trimRight r := by
  rw [trim, trimLeft_of_head (by simpa using h)]
  exact trimRight_append_of_left (a := [c]) (by simpa using h) r

@[simp] theorem trim_trimRight (cs : List Char) : trim (trimRight cs) = trim cs := by
  obtain ⟨b, hb, hcs⟩ := exists_trimRight_append_allBlank cs
  rw [← trim_append_of_allBlank (trimRight cs) hb, ← hcs]

@[simp] theorem trim_trim (cs : List Char) : trim (trim cs) = trim cs :=
  trim_of_trimmed (trimmed_trim cs)

/-! ## What is not blank -/

@[simp] theorem inked_nil : inked [] = [] := rfl

@[simp] theorem inked_append (a b : List Char) : inked (a ++ b) = inked a ++ inked b :=
  List.filter_append ..

theorem inked_cons (c : Char) (r : List Char) : inked (c :: r) = inked [c] ++ inked r :=
  inked_append [c] r

theorem inked_eq_nil_iff : inked cs = [] ↔ AllBlank cs := by
  simp [inked, AllBlank]

theorem AllBlank.inked_eq_nil (h : AllBlank cs) : inked cs = [] := inked_eq_nil_iff.2 h

@[simp] theorem inked_trimRight (cs : List Char) : inked (trimRight cs) = inked cs := by
  obtain ⟨b, hb, hcs⟩ := exists_trimRight_append_allBlank cs
  conv_rhs => rw [hcs]
  rw [inked_append, hb.inked_eq_nil, List.append_nil]

@[simp] theorem inked_trim (cs : List Char) : inked (trim cs) = inked cs := by
  obtain ⟨a, b, ha, hb, hcs⟩ := exists_trim cs
  conv_rhs => rw [hcs]
  rw [inked_append, inked_append, ha.inked_eq_nil, hb.inked_eq_nil, List.append_nil,
    List.nil_append]

/-! ## Texts with something left out -/

/-- The text `kept` is what stays of `whole`, in its order, when the characters of `lost` are left
out. -/
structure LeavesOut (kept lost whole : List Char) : Prop where
  sublist : kept.Sublist whole
  perm : (kept ++ lost).Perm whole

theorem leavesOut_nothing (w : List Char) : LeavesOut w [] w := ⟨List.Sublist.refl w, by simp⟩

theorem leavesOut_all (w : List Char) : LeavesOut [] w w := ⟨List.nil_sublist w, by simp⟩

theorem LeavesOut.append {k₁ k₂ l₁ l₂ w₁ w₂ : List Char} (h₁ : LeavesOut k₁ l₁ w₁)
    (h₂ : LeavesOut k₂ l₂ w₂) : LeavesOut (k₁ ++ k₂) (l₁ ++ l₂) (w₁ ++ w₂) := by
  refine ⟨h₁.sublist.append h₂.sublist, ?_⟩
  have hswap : (k₁ ++ (k₂ ++ l₁) ++ l₂).Perm (k₁ ++ (l₁ ++ k₂) ++ l₂) :=
    (List.perm_append_comm.append_left k₁).append_right l₂
  simpa using hswap.trans (by simpa using h₁.perm.append h₂.perm)

/-- Nothing changes if and only if nothing is left out. -/
theorem LeavesOut.eq_iff {kept lost whole : List Char} (h : LeavesOut kept lost whole) :
    kept = whole ↔ lost = [] := by
  have hlen := h.perm.length_eq
  rw [List.length_append] at hlen
  constructor
  · rintro rfl
    exact List.eq_nil_of_length_eq_zero (by omega)
  · rintro rfl
    exact h.sublist.eq_of_length (by simpa using hlen)

end Partitura.Text
