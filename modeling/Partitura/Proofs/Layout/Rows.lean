import Mathlib.Data.List.Basic
import Partitura.Proofs.Layout.Lines

/-!
# Lines as rows of lexemes

The lexemes of code are laid out in rows, one for each line. A row is broken by its last lexeme
only, and only its first one closes a block; it is written as `rowText` at the level that all
lexemes before it lead to. `Rows` says this of all lines, and `rows_statements` that it holds of the
lines of any code. What is to be shown of each line, or of all of them, follows by induction over
the rows.
-/

namespace Partitura.Layout

open ManuScript ManuScript.Lexer Text

variable {row ls : List (Kind × List Char)} {level : Int} {lines : List (List Char)}

/-- The text of some lexemes in one line. -/
def rowText (row : List (Kind × List Char)) : List Char :=
  row.foldl (fun w l => joined (manner l.1) w l.2) []

/-- Whether a lexeme closes a block. -/
def closes (l : Kind × List Char) : Bool := manner l.1 = .closesBlock

/-- The level of a line: one step further out if it starts with the end of a block. -/
def levelAt (row : List (Kind × List Char)) (level : Int) : Int :=
  if row.head?.any closes then level - 1 else level

/-- The level after some lexemes. -/
def levelPast (row : List (Kind × List Char)) (level : Int) : Int :=
  row.foldl (fun n l => levelAfter (manner l.1) n) level

/-- What may stand in one line: only the last lexeme breaks it, only the first one closes a block,
and then an `else` follows. -/
structure Row (row : List (Kind × List Char)) : Prop where
  ne_nil : row ≠ []
  last : ∀ l ∈ row.dropLast, breaks (manner l.1) = false
  first : ∀ l ∈ row.tail, closes l = false
  next : row.head?.any closes = true → ∀ l ∈ row.tail.head?, l.1 = .kwElse

/-- Lexemes and the lines that they stand in, the first one at that level. A line ends with a lexeme
that breaks it, and around the ends of blocks. -/
inductive Rows : Int → List (Kind × List Char) → List (List Char) → Prop
  | nil {level : Int} : Rows level [] []
  | cons {level : Int} {row ls : List (Kind × List Char)} {lines : List (List Char)}
    (hrow : Row row)
      (hend : ∀ a ∈ row.getLast?, ∀ b ∈ ls.head?, breaks (manner a.1) = true ∨ closes a = true ∨
        closes b = true)
      (h : Rows (levelPast row level) ls lines) :
          Rows level (row ++ ls) (makeLine [rowText row] (levelAt row level) :: lines)

/-- What may stand in a line that is still open, before the other lexemes. -/
structure OpenRow (row ls : List (Kind × List Char)) : Prop where
  quiet : ∀ l ∈ row, breaks (manner l.1) = false
  first : ∀ l ∈ row.tail, closes l = false
  next : row.head?.any closes = true → (row ++ ls).tail.head?.any (·.1 = .kwElse) = true

theorem rowText_concat (row : List (Kind × List Char)) (l : Kind × List Char) :
    rowText (row ++ [l]) = joined (manner l.1) (rowText row) l.2 := by
  simp [rowText]

theorem levelPast_concat (row : List (Kind × List Char)) (l : Kind × List Char) (level : Int) :
    levelPast (row ++ [l]) level = levelAfter (manner l.1) (levelPast row level) := by
  simp [levelPast]

theorem flushText_rowText (hrow : row ≠ []) (h : ∀ l ∈ row, l.2 ≠ []) (level : Int) :
    flushText level (rowText row) = [makeLine [rowText row] level] := by
  obtain ⟨init, l, rfl⟩ := (List.eq_nil_or_concat' row).resolve_left hrow
  refine if_neg ?_
  rw [rowText_concat, joined]
  simp [h l (by simp)]

theorem levelAfter_of_quiet {l : Kind × List Char} (h : breaks (manner l.1) = false) (level : Int) :
    levelAfter (manner l.1) level = if closes l then level - 1 else level := by
  unfold closes
  cases hm : manner l.1 <;> simp_all [levelAfter, breaks]

theorem levelPast_of_quiet (h : ∀ l ∈ ls, breaks (manner l.1) = false ∧ closes l = false)
    (level : Int) : levelPast ls level = level := by
  induction ls with
  | nil => rfl
  | cons l r ih =>
    obtain ⟨⟨hquiet, hclose⟩, hr⟩ := List.forall_mem_cons.1 h
    rw [levelPast, List.foldl_cons, levelAfter_of_quiet hquiet, hclose]
    exact ih hr

theorem OpenRow.levelPast_eq (h : OpenRow row ls) (level : Int) :
    levelPast row level = levelAt row level := by
  cases row with
  | nil => rfl
  | cons l r =>
    have hrest :=
      levelPast_of_quiet fun t ht => ⟨h.quiet t (List.mem_cons_of_mem _ ht), h.first t ht⟩
    exact (hrest _).trans (levelAfter_of_quiet (h.quiet l (by simp)) level)

theorem second_of_append (hrow : row ≠ []) (h : (row ++ ls).tail.head?.any (·.1 = .kwElse) = true) :
    ∀ l ∈ row.tail.head?, l.1 = .kwElse := by
  intro l hl
  obtain ⟨t, r, rfl⟩ := List.exists_cons_of_ne_nil hrow
  obtain ⟨q, hq⟩ := List.head?_eq_some_iff.1 hl
  simpa [show r = l :: q from hq] using h

/-- The open line ends before the end of a block, and at the end. -/
theorem OpenRow.flush (h : OpenRow row ls) (hne : ∀ l ∈ row, l.2 ≠ [])
    (hls : ∀ b ∈ ls.head?, closes b = true) (hr : Rows (levelPast row level) ls lines) :
    Rows level (row ++ ls) (flushText (levelPast row level) (rowText row) ++ lines) := by
  by_cases hrow : row = []
  · subst hrow
    exact hr
  · rw [flushText_rowText hrow hne, h.levelPast_eq]
    exact .cons ⟨hrow, fun l hl => h.quiet l (List.dropLast_subset _ hl), h.first,
      fun hhead => second_of_append hrow (h.next hhead)⟩
      (fun a _ b hb => .inr (.inr (hls b hb))) hr

/-- A lexeme that closes no block is put behind the open line. -/
theorem OpenRow.concat {r : List (Kind × List Char)} {l : Kind × List Char}
    (h : OpenRow row (l :: r)) (hl : closes l = false) :
    (∀ t ∈ (row ++ [l]).tail, closes t = false) ∧
      (∀ level, levelAt (row ++ [l]) level = levelAt row level) ∧
      ((row ++ [l]).head?.any closes = true →
        (row ++ l :: r).tail.head?.any (·.1 = .kwElse) = true) := by
  cases row with
  | nil => simp [levelAt, hl]
  | cons t q => exact ⟨List.forall_mem_append.2 ⟨h.first, by simpa using hl⟩, fun _ => rfl, h.next⟩

theorem openRow_nil (ls : List (Kind × List Char)) : OpenRow [] ls := ⟨by simp, by simp, by simp⟩

/-- The lines of some lexemes, behind an open line. -/
theorem rows_open (hls : ∀ l ∈ ls, l.2 ≠ []) (hrow : ∀ l ∈ row, l.2 ≠ [])
    (h : OpenRow row ls) (level : Int) :
    Rows level (row ++ ls) (textLines (levelPast row level) (rowText row) ls) := by
  induction ls generalizing row level with
  | nil => simpa [textLines] using h.flush hrow (by simp) .nil
  | cons l r ih =>
    obtain ⟨hl, hr⟩ := List.forall_mem_cons.1 hls
    have hfresh : ∀ n, Rows n r (textLines n [] r) := ih hr (List.forall_mem_nil _) (openRow_nil r)
    rw [textLines]
    by_cases hm : manner l.1 = .closesBlock
    · have hclose : closes l = true := by simpa [closes] using hm
      have htext : rowText [l] = l.2 := by simp [rowText, joined, hm, before, after]
      have hlevel : ∀ n, levelAt [l] n = levelAfter (manner l.1) n := by
        simp [levelAt, hclose, hm, levelAfter]
      rw [if_pos hm]
      refine h.flush hrow (by simpa using hclose) ?_
      split
      · next helse =>
        have hopen : OpenRow [l] r := ⟨by simp [hm, breaks], by simp, fun _ => helse⟩
        have hrest := ih hr (by simpa using hl) hopen (levelPast row level)
        rwa [htext] at hrest
      · have halone : Row [l] := ⟨by simp, by simp, by simp, by simp⟩
        rw [← htext, ← hlevel]
        exact .cons halone (by simp [hclose]) (by rw [hlevel]; exact hfresh _)
    · have hclose : closes l = false := by simpa [closes] using hm
      obtain ⟨hfirst, hlevel, hnext⟩ := h.concat hclose
      have htexts : ∀ t ∈ row ++ [l], t.2 ≠ [] := List.forall_mem_append.2 ⟨hrow, by simpa using hl⟩
      rw [if_neg hm, ← rowText_concat, ← levelPast_concat, List.append_cons]
      split
      · next hbreak =>
        rw [flushText_rowText (by simp) htexts, h.levelPast_eq, ← hlevel]
        refine .cons ⟨by simp, by simpa using h.quiet, hfirst, fun hhead => ?_⟩
          (by simp [hbreak]) (hfresh _)
        exact second_of_append (by simp) (List.append_cons row l r ▸ hnext hhead)
      · next hbreak =>
        refine ih hr htexts
          ⟨List.forall_mem_append.2 ⟨h.quiet, by simpa using hbreak⟩, hfirst, ?_⟩ level
        simpa using hnext

theorem rows_textLines (h : ∀ l ∈ ls, l.2 ≠ []) (level : Int) :
    Rows level ls (textLines level [] ls) :=
  rows_open h (List.forall_mem_nil _) (openRow_nil ls) level

theorem rows_statements (level : Int) (content : List Char) :
    Rows level (lexemes .body content) (statements level content) := by
  rw [statements_eq]
  refine rows_textLines (fun l hl hnil => (proper_of_mem_lexemes hl).ink ?_) level
  rw [hnil]
  exact allBlank_nil

theorem Rows.exists_row (h : Rows level ls lines) {line : List Char} (hm : line ∈ lines) :
    ∃ row n, Row row ∧ row ⊆ ls ∧ line = makeLine [rowText row] n := by
  induction h with
  | nil => cases hm
  | cons hrow _ _ ih =>
    rcases List.mem_cons.1 hm with rfl | hm
    · exact ⟨_, _, hrow, List.subset_append_left .., rfl⟩
    · obtain ⟨row, n, hrow, hsub, rfl⟩ := ih hm
      exact ⟨row, n, hrow, List.Subset.trans hsub (List.subset_append_right ..), rfl⟩

/-! ## What is written -/

theorem inked_spaces {g : List Char} (h : ∀ c ∈ g, c = ' ') : inked g = [] :=
  (allBlank_of_spaces h).inked_eq_nil

@[simp] theorem inked_before (m : Manner) (w : List Char) : inked (before m w) = inked w := by
  have hsp : inked (w ++ [' ']) = inked w := by
    rw [inked_append, show inked [' '] = [] by decide, List.append_nil]
  cases m with
  | opensBlock | operator => exact hsp
  | closesBlock | endsStatement | separator | opener => rfl
  | remark | headword | word =>
    rw [before, spacedText]
    split
    · rfl
    · exact hsp
  | closer =>
    rw [before, tightText]
    split
    · exact inked_trimRight w
    · rfl

@[simp] theorem inked_joined (m : Manner) (w t : List Char) :
    inked (joined m w t) = inked w ++ inked t := by
  rw [joined, inked_append, inked_append, inked_before, inked_spaces (fun _ => mem_after),
    List.append_nil]

@[simp] theorem inked_makeLine (w : List Char) (level : Int) :
    inked (makeLine [w] level) = inked w := by
  rw [makeLine, List.flatten_singleton]
  split
  · next h => exact (trim_eq_nil_iff.1 (List.isEmpty_iff.1 h)).inked_eq_nil.symm
  · rw [inked_append, inked_spaces (fun _ => mem_indentationOf), inked_trim, List.nil_append]

@[simp] theorem inked_rowText (row : List (Kind × List Char)) :
    inked (rowText row) = row.flatMap (inked ·.2) := by
  induction row using List.reverseRecOn with
  | nil => rfl
  | append_singleton init l ih =>
    rw [rowText_concat, inked_joined, ih, List.flatMap_append, List.flatMap_singleton]

/-- The lines of some lexemes hold their characters, in their order, and blanks. -/
theorem Rows.inked_eq (h : Rows level ls lines) : lines.flatMap inked = ls.flatMap (inked ·.2) := by
  induction h with
  | nil => rfl
  | cons _ _ _ ih => rw [List.flatMap_cons, inked_makeLine, inked_rowText, ih, List.flatMap_append]

end Partitura.Layout
