import Mathlib.Data.List.Basic
import Partitura.Proofs.Text.Blanks
import Partitura.Text.Lines

/-!
# Lines of a text

Cutting a text at its line feeds and putting lines together again are inverse to each other, as long
as no line holds a line feed. Lines that do hold one are cut further: `lines_unlines`.
-/

namespace Partitura.Text

variable {ls : List (List Char)} {l cs : List Char} {sep : Char}

theorem splitOn_eq (sep : Char) (cs : List Char) : splitOn sep cs = cs.splitOn sep := by
  induction cs with
  | nil => rfl
  | cons c r ih =>
    rw [splitOn, List.splitOn_cons_eq_if_modifyHead, ih]
    split
    · rfl
    · cases h : r.splitOn sep with
      | nil => exact absurd h (List.splitOn_ne_nil sep r)
      | cons p ps => rfl

theorem joinWith_eq (sep : List Char) (ls : List (List Char)) :
    joinWith sep ls = sep.intercalate ls := by
  fun_induction joinWith sep ls with
  | case1 => rfl
  | case2 p => rw [List.intercalate_singleton]
  | case3 p q ps ih => rw [ih, List.intercalate_cons_cons]

/-- A character that is not in the separator stands in one of the parts. -/
theorem mem_intercalate {sep : List Char} {c : Char} (hc : c ∉ sep) :
    c ∈ sep.intercalate ls ↔ ∃ l ∈ ls, c ∈ l := by
  induction ls with
  | nil => simp
  | cons l ls ih =>
    cases ls with
    | nil => simp
    | cons m ms =>
      rw [List.intercalate_cons_cons, List.mem_append, List.mem_append, ih]
      simp [hc]

theorem lines_eq (cs : List Char) : lines cs = cs.splitOn '\n' := splitOn_eq '\n' cs

theorem lines_ne_nil (cs : List Char) : lines cs ≠ [] := by
  rw [lines_eq]
  exact List.splitOn_ne_nil '\n' cs

@[simp] theorem unlines_nil : unlines [] = [] := rfl

@[simp] theorem unlines_singleton (l : List Char) : unlines [l] = l := rfl

theorem unlines_cons (h : ls ≠ []) : unlines (l :: ls) = l ++ '\n' :: unlines ls := by
  cases ls with
  | nil => exact absurd rfl h
  | cons m ms => simp [unlines, joinWith]

@[simp] theorem unlines_lines (cs : List Char) : unlines (lines cs) = cs := by
  rw [unlines, joinWith_eq, lines_eq, List.intercalate_splitOn]

theorem unlines_append {xs ys : List (List Char)} (hx : xs ≠ []) (hy : ys ≠ []) :
    unlines (xs ++ ys) = unlines xs ++ '\n' :: unlines ys := by
  induction xs with
  | nil => exact absurd rfl hx
  | cons l ls ih =>
    cases ls with
    | nil => rw [List.singleton_append, unlines_cons hy, unlines_singleton]
    | cons m ms =>
      have hm : m :: ms ≠ [] := by simp
      rw [List.cons_append, unlines_cons (by simp), ih hm, unlines_cons hm, List.append_assoc,
        List.cons_append]

/-! ## Cutting -/

/-- Every line before the last ones ends with a line feed. -/
theorem unlines_append_eq (xs : List (List Char)) {ys : List (List Char)} (hy : ys ≠ []) :
    unlines (xs ++ ys) = xs.flatMap (· ++ ['\n']) ++ unlines ys := by
  induction xs with
  | nil => rfl
  | cons l ls ih =>
    rw [List.cons_append, unlines_cons (by simp [hy]), ih]
    simp

/-- Strings that are joined by line feeds are lines. -/
theorem toList_join_newline (ls : List String) :
    (join "\n" ls).toList = unlines (ls.map String.toList) := by
  rw [join, String.toList_intercalate, unlines, joinWith_eq]
  rfl

theorem lines_of_not_mem (h : '\n' ∉ l) : lines l = [l] := by
  rw [lines_eq, List.splitOn_eq_singleton h]

theorem lines_append_newline (xs ys : List Char) :
    lines (xs ++ '\n' :: ys) = lines xs ++ lines ys := by
  rw [lines_eq, lines_eq, lines_eq, List.splitOn_append_cons_self]

/-- A piece between separators has none. -/
theorem not_mem_of_mem_splitOn {p : List Char} (h : p ∈ splitOn sep cs) : sep ∉ p := by
  induction cs generalizing p with
  | nil => simp_all [splitOn]
  | cons c r ih =>
    rw [splitOn] at h
    split at h
    · rcases List.mem_cons.1 h with rfl | h
      · simp
      · exact ih h
    · next hc =>
      cases hr : splitOn sep r with
      | nil =>
        rw [splitOn_eq] at hr
        exact absurd hr (List.splitOn_ne_nil sep r)
      | cons q qs =>
        have hq : sep ∉ q := ih (p := q) (by rw [hr]; simp)
        simp only [hr] at h
        rcases List.mem_cons.1 h with rfl | h
        · rw [List.mem_cons, not_or]
          exact ⟨fun e => hc (by simp [← e]), hq⟩
        · exact ih (by rw [hr]; simp [h])

theorem newline_not_mem_of_mem_lines (h : l ∈ lines cs) : '\n' ∉ l := not_mem_of_mem_splitOn h

/-- Cutting lines that were put together cuts each of them. -/
theorem lines_unlines (h : ls ≠ []) : lines (unlines ls) = ls.flatMap lines := by
  induction ls with
  | nil => exact absurd rfl h
  | cons l ls ih =>
    cases ls with
    | nil => simp
    | cons m ms =>
      have hm : m :: ms ≠ [] := by simp
      rw [unlines_cons hm, lines_append_newline, ih hm]
      rfl

theorem flatMap_lines_of_not_mem (h : ∀ l ∈ ls, '\n' ∉ l) : ls.flatMap lines = ls := by
  induction ls with
  | nil => rfl
  | cons l ls ih =>
    rw [List.flatMap_cons, lines_of_not_mem (h l (by simp)), ih fun m hm => h m (by simp [hm]),
      List.singleton_append]

/-- What stands on the first line before a text lengthens its first line. -/
theorem lines_append_of_not_mem {a b : List Char} (ha : '\n' ∉ a) (hb : lines b = l :: ls) :
    lines (a ++ b) = (a ++ l) :: ls := by
  induction a with
  | nil => exact hb
  | cons c a ih =>
    simp only [List.mem_cons, not_or] at ha
    have hc : (c == '\n') = false := by simpa using Ne.symm ha.1
    have : splitOn '\n' (a ++ b) = (a ++ l) :: ls := ih ha.2
    simp only [List.cons_append, lines, splitOn, hc, this]
    rfl

/-- What stands behind a text lengthens its last line. -/
theorem unlines_concat_append (ks : List (List Char)) (w x : List Char) :
    unlines (ks ++ [w]) ++ x = unlines (ks ++ [w ++ x]) := by
  rw [unlines_append_eq ks (by simp), unlines_append_eq ks (by simp), unlines_singleton,
    unlines_singleton, List.append_assoc]

theorem lines_append_concat {a w x : List Char} {ks : List (List Char)} (ha : lines a = ks ++ [w])
    (hx : '\n' ∉ x) : lines (a ++ x) = ks ++ [w ++ x] := by
  have hlines : ∀ l ∈ ks ++ [w], '\n' ∉ l := fun l hl => newline_not_mem_of_mem_lines (ha ▸ hl)
  rw [← unlines_lines a, ha, unlines_concat_append, lines_unlines (by simp),
    flatMap_lines_of_not_mem]
  intro l hl
  rcases List.mem_append.1 hl with hl | hl
  · exact hlines l (List.mem_append_left _ hl)
  · rw [List.mem_singleton.1 hl, List.mem_append, not_or]
    exact ⟨hlines w (by simp), hx⟩

theorem length_lines (cs : List Char) : (lines cs).length = cs.countP (· == '\n') + 1 := by
  induction cs with
  | nil => rfl
  | cons c r ih =>
    rw [lines, splitOn, List.countP_cons]
    split
    · next hc => rw [List.length_cons, ← lines, ih]
    · next hc =>
      cases hr : splitOn '\n' r with
      | nil => exact absurd hr (lines_ne_nil r)
      | cons p ps =>
        rw [lines, hr] at ih
        simpa using ih

/-! ## Pieces between other separators -/

theorem splitOn_append_cons (sep : Char) (xs ys : List Char) :
    splitOn sep (xs ++ sep :: ys) = splitOn sep xs ++ splitOn sep ys := by
  rw [splitOn_eq, splitOn_eq, splitOn_eq, List.splitOn_append_cons_self]

theorem splitOn_of_not_mem (h : sep ∉ l) : splitOn sep l = [l] := by
  rw [splitOn_eq, List.splitOn_eq_singleton h]

/-- Cutting strings that were joined cuts each of them. -/
theorem pieces_join {s : String} (hs : s.toList = [sep]) {ws : List String} (h : ws ≠ []) :
    pieces sep (join s ws) = ws.flatMap (pieces sep) := by
  induction ws with
  | nil => exact absurd rfl h
  | cons w ws ih =>
    cases ws with
    | nil => simp [join]
    | cons v vs =>
      have hjoin :
          (join s (w :: v :: vs)).toList = w.toList ++ sep :: (join s (v :: vs)).toList := by
        simp [join, hs]
      rw [pieces, hjoin, splitOn_append_cons, List.map_append, List.flatMap_cons, ← ih (by simp)]
      rfl

theorem pieces_join_of_not_mem {s : String} (hs : s.toList = [sep])
    {ws : List String} (hne : ws ≠ []) (h : ∀ w ∈ ws, sep ∉ w.toList) :
    pieces sep (join s ws) = ws := by
  have hpieces : ∀ w ∈ ws, pieces sep w = [w] := by
    intro w hw
    rw [pieces, splitOn_of_not_mem (h w hw), List.map_singleton, String.ofList_toList]
  rw [pieces_join hs hne, List.flatMap_congr hpieces, List.flatMap_singleton']

theorem inked_unlines (ls : List (List Char)) : inked (unlines ls) = ls.flatMap inked := by
  induction ls with
  | nil => rfl
  | cons l r ih =>
    by_cases hr : r = []
    · simp [hr]
    · rw [unlines_cons hr, inked_append, inked_cons, show inked ['\n'] = [] by decide,
        List.nil_append, ih, List.flatMap_cons]

/-- A text without carriage returns has no foreign line ends. -/
theorem readLineEnds_of_not_mem (h : '\r' ∉ cs) : readLineEnds cs = cs := by
  fun_induction readLineEnds cs with
  | case1 => rfl
  | case2 r => simp at h
  | case3 c r _ ih =>
    obtain ⟨hc, hr⟩ := not_or.1 (List.mem_cons.not.1 h)
    rw [ih hr, if_neg (by simpa using Ne.symm hc)]

end Partitura.Text
