import Mathlib
import Partitura.Text.Distance

/-!
# Suggestions

The edit distance is computed by a table of which one row is kept at a time, and the name that is
offered for another one by a search among candidates. Both are optimal (`similar?_optimal`): the
table gives the distance by its recursion, and no candidate is nearer than the one that is offered.

A row need not be known entry by entry. What counts is the least cost of going on from any of its
entries to the end of both lists (`leastThrough`): a step from one row to the next leaves it as it
is, in the first row it is the distance, and in the last row it is the last entry.
-/

namespace Partitura.Text

section Table

variable {α : Type} [DecidableEq α]

/-- The Levenshtein distance by its recursion: an element is deleted, inserted, or kept or
replaced. -/
def leastEdits : List α → List α → Nat
  | [], t => t.length
  | s, [] => s.length
  | c :: s, d :: t =>
    min (min (leastEdits s (d :: t) + 1) (leastEdits (c :: s) t + 1))
      (leastEdits s t + if c = d then 0 else 1)

@[simp] theorem leastEdits_nil_left (t : List α) : leastEdits [] t = t.length := by rw [leastEdits]

@[simp] theorem leastEdits_nil_right (s : List α) : leastEdits s [] = s.length := by
  cases s <;> simp [leastEdits]

theorem leastEdits_comm (s t : List α) : leastEdits s t = leastEdits t s := by
  fun_induction leastEdits s t with
  | case1 t => simp
  | case2 s => simp
  | case3 c s d t ihs iht ih =>
    rw [leastEdits, ihs, iht, ih, min_comm (leastEdits t (c :: s) + 1)]
    simp only [eq_comm]

theorem leastEdits_self (s : List α) : leastEdits s s = 0 := by
  induction s with
  | nil => simp
  | cons c s ih => simp [leastEdits, ih]

theorem leastEdits_cons_le (c : α) (s t : List α) : leastEdits (c :: s) t ≤ leastEdits s t + 1 := by
  cases t with
  | nil => simp
  | cons d t =>
    rw [leastEdits]
    omega

theorem leastEdits_le_cons (s : List α) (d : α) (t : List α) :
    leastEdits s (d :: t) ≤ leastEdits s t + 1 := by
  rw [leastEdits_comm s, leastEdits_comm s]
  exact leastEdits_cons_le d t s

/-! ## Rows -/

/-- The entries of a row over `t`, the first one `n` and the others in a list. None is more than one
above the entry before it. -/
inductive IsRow : Nat → List α → List Nat → Prop
  | nil {n : Nat} : IsRow n [] []
  | cons {n next : Nat} {d : α} {t : List α} {row : List Nat} (hnext : next ≤ n + 1)
    (hrow : IsRow next t row) :
      IsRow n (d :: t) (next :: row)

/-- The least cost of getting from a row over `t` to the end, with `s` still to be read: what an
entry of the row costs, and what it costs to turn `s` into the rest of `t` there. -/
def leastThrough (s : List α) (n : Nat) : List α → List Nat → Nat
  | d :: t, next :: row => min (n + leastEdits s (d :: t)) (leastThrough s next t row)
  | t, _ => n + leastEdits s t

variable {t : List α} {row : List Nat} {n : Nat}

theorem leastThrough_le (s : List α) (n : Nat) (t : List α) (row : List Nat) :
    leastThrough s n t row ≤ n + leastEdits s t := by
  rw [leastThrough.eq_def]
  split <;> omega

namespace IsRow

theorem rowFrom (h : IsRow n t row) (left : Nat) (c : α) :
    IsRow left t (Text.rowFrom left c t (n :: row)) := by
  induction h generalizing left with
  | nil => exact .nil
  | cons _ _ ih =>
    refine .cons ?_ (ih _)
    omega

/-- The entries of the next row from one on: only the ways that go down in the columns before are
left out. -/
theorem leastThrough_rowFrom (h : IsRow n t row) (s : List α) (c : α) {left : Nat}
    (hleft : left ≤ n + 1) :
    leastThrough s left t (Text.rowFrom left c t (n :: row)) = min (left + leastEdits s t)
    (leastThrough (c :: s) n t row) := by
  induction h generalizing left with
  | nil =>
    simp only [leastThrough, leastEdits_nil_right, List.length_cons]
    omega
  | @cons n next d t row hnext hrow ih =>
    -- a way from the first entry that is none of the three is no better than one from the next
    -- entry
    have hdown := leastThrough_le (c :: s) next t row
    have hc := leastEdits_cons_le c s t
    have hd := leastEdits_le_cons s d t
    rw [Text.rowFrom, leastThrough, ih (by omega), leastThrough, leastEdits]
    omega

/-- One step leaves the least cost as it is. -/
theorem leastThrough_step (h : IsRow n t row) (s : List α) (c : α) :
    leastThrough s (n + 1) t (Text.rowFrom (n + 1) c t (n :: row)) =
      leastThrough (c :: s) n t row := by
  have hle := leastThrough_le (c :: s) n t row
  have hc := leastEdits_cons_le c s t
  rw [h.leastThrough_rowFrom s c (Nat.le_refl _)]
  omega

theorem getLastD_eq (h : IsRow n t row) : (n :: row).getLastD 0 = leastThrough [] n t row := by
  induction h with
  | nil => simp [leastThrough]
  | @cons n next d t row hnext _ ih =>
    have hle := leastThrough_le [] next t row
    rw [List.getLastD_cons] at ih ⊢
    rw [List.getLastD_cons, leastThrough, ← ih]
    rw [← ih, leastEdits_nil_left] at hle
    rw [leastEdits_nil_left, List.length_cons]
    omega

/-- The last entry of the table, from any row on. -/
theorem getLastD_lastRow (h : IsRow n t row) (s : List α) :
    (lastRow t n (n :: row) s).getLastD 0 = leastThrough s n t row := by
  induction s generalizing n row with
  | nil => exact h.getLastD_eq
  | cons c s ih => rw [lastRow, ih (h.rowFrom _ c), h.leastThrough_step]

end IsRow

/-- The first row counts up, and from no entry the way is shorter than from the first one. -/
theorem leastThrough_range' (s : List α) (n : Nat) (t : List α) :
    IsRow n t (List.range' (n + 1) t.length) ∧ leastThrough s n t (List.range' (n + 1) t.length) =
      n + leastEdits s t := by
  induction t generalizing n with
  | nil => exact ⟨.nil, rfl⟩
  | cons d t ih =>
    obtain ⟨hrow, hleast⟩ := ih (n + 1)
    have hd := leastEdits_le_cons s d t
    refine ⟨.cons (Nat.le_refl _) hrow, ?_⟩
    rw [List.length_cons, List.range'_succ, leastThrough, hleast]
    omega

theorem getLastD_table (s t : List α) :
    (lastRow t 0 (List.range (t.length + 1)) s).getLastD 0 = leastEdits s t := by
  obtain ⟨hrow, hleast⟩ := leastThrough_range' s 0 t
  rw [List.range_eq_range', List.range'_succ, hrow.getLastD_lastRow, hleast, Nat.zero_add]

theorem editDistance_eq (s t : List α) : editDistance s t = leastEdits s t := by
  unfold editDistance
  split
  next long short hpair =>
  rw [getLastD_table]
  split at hpair
  · cases hpair
    exact leastEdits_comm t s
  · cases hpair
    rfl

end Table

/-! ## The nearest name -/

variable {names : List String} {f : String → Nat} {c name : String} {n : Nat}

theorem nearest?_eq_none (h : nearest? f names = none) : names = [] := by
  cases names with
  | nil => rfl
  | cons s rest =>
    rw [nearest?] at h
    split at h
    · cases h
    · split at h <;> cases h

theorem nearest?_eq_some (h : nearest? f names = some (c, n)) :
    c ∈ names ∧ n = f c ∧ ∀ d ∈ names, f c ≤ f d := by
  induction names generalizing c n with
  | nil => cases h
  | cons s rest ih =>
    rw [nearest?] at h
    split at h
    · next hnone =>
      cases h
      rw [nearest?_eq_none hnone]
      simp
    · next t m hsome =>
      obtain ⟨ht, rfl, hleast⟩ := ih hsome
      split at h
      · next hle =>
        cases h
        exact ⟨List.mem_cons_self, rfl,
          List.forall_mem_cons.2 ⟨le_rfl, fun d hd => hle.trans (hleast d hd)⟩⟩
      · next hlt =>
        cases h
        exact ⟨List.mem_cons_of_mem _ ht, rfl, List.forall_mem_cons.2 ⟨by omega, hleast⟩⟩

/-- The distance of a candidate from a name, whatever their case. -/
def nameDistance (name c : String) : Nat := leastEdits (lower name).toList (lower c).toList

theorem tolerance_eq (n : Nat) : tolerance n = max 2 ⌊(0.4 : ℚ) * n⌋₊ := by
  have hfifths : (0.4 : ℚ) * n = ((n * 2 : ℕ) : ℚ) / (5 : ℕ) := by
    push_cast
    ring
  rw [tolerance, hfifths, Nat.floor_div_eq_div]

/-- A candidate that differs in case only has no distance. -/
theorem nameDistance_of_find? (h : (names.find? fun c => lower c == lower name) = some c) :
    c ∈ names ∧ nameDistance name c = 0 := by
  have hlower : lower c = lower name := by simpa using List.find?_some h
  exact ⟨List.mem_of_find?_eq_some h, by rw [nameDistance, hlower, leastEdits_self]⟩

/-- One of the nearest candidates is offered, if it is near enough. -/
theorem similar?_cases (name : String) (names : List String) :
    (similar? name names = none ∧ ∀ c ∈ names, tolerance name.length < nameDistance name c) ∨
      ∃ c ∈ names, similar? name names = some c ∧ nameDistance name c ≤ tolerance name.length ∧
        ∀ d ∈ names, nameDistance name c ≤ nameDistance name d := by
  simp only [similar?, editDistance_eq]
  split
  · next c hfind =>
    obtain ⟨hc, hzero⟩ := nameDistance_of_find? hfind
    exact .inr ⟨c, hc, rfl, by omega, fun d _ => by omega⟩
  · split
    · next c n hnearest =>
      obtain ⟨hc, rfl, hleast⟩ := nearest?_eq_some hnearest
      split
      · next hle => exact .inr ⟨c, hc, rfl, hle, hleast⟩
      · next hgt => exact .inl ⟨rfl, fun d hd => (Nat.lt_of_not_le hgt).trans_le (hleast d hd)⟩
    · next hnone =>
      rw [nearest?_eq_none hnone]
      exact .inl ⟨rfl, List.forall_mem_nil _⟩

/-- **Suggestions are optimal.** The table gives the Levenshtein distance of any two texts, and the
same in both directions. Whatever the candidates for a name are and in whatever order they come,
none is offered if all are further away than the greater of two and two fifths of the length of the
name; otherwise one is offered that is not, and none of the others is nearer. -/
theorem similar?_optimal (s t name : String) (names : List String) :
    (editDistance s.toList t.toList = leastEdits s.toList t.toList ∧
      editDistance s.toList t.toList = editDistance t.toList s.toList) ∧
    if ∀ c ∈ names, max 2 ⌊(0.4 : ℚ) * name.length⌋₊ < nameDistance name c then
      similar? name names = none
    else ∃ c ∈ names, similar? name names = some c ∧
      nameDistance name c ≤ max 2 ⌊(0.4 : ℚ) * name.length⌋₊ ∧
      ∀ d ∈ names, nameDistance name c ≤ nameDistance name d := by
  refine ⟨⟨editDistance_eq _ _, ?_⟩, ?_⟩
  · rw [editDistance_eq, editDistance_eq, leastEdits_comm]
  · rw [← tolerance_eq]
    rcases similar?_cases name names with ⟨hnone, hfar⟩ | ⟨c, hc, hsome, hnear, hleast⟩
    · rwa [if_pos hfar]
    · rw [if_neg fun hfar => absurd hnear (Nat.not_le.2 (hfar c hc))]
      exact ⟨c, hc, hsome, hnear, hleast⟩

-- two letters that changed places are two replacements, which is just near enough
example : similar? "Lenght" ["Width", "Length"] = some "Length" := by decide +kernel

end Partitura.Text
