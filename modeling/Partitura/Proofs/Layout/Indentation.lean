import Mathlib.Data.List.Infix
import Partitura.Proofs.Layout.Relexing

/-!
# Indentation of laid out code

What the lines of laid out code look like to a reader that sees only the lines: `statements_line`
reads each of them again. Its first and its last token say how it is placed, and the braces in the
lines before it how far it is indented, as long as no brace is closed that was not opened. Numbers
that grow together in a line do not matter here, because neither of them breaks a line or closes a
block.
-/

namespace Partitura.Layout

open ManuScript ManuScript.Lexer Text

/-- The kinds of the tokens of some code. -/
def kinds (cs : List Char) : List Kind := (lex .body ⟨1, 1⟩ cs).tokens.map Token.kind

theorem kinds_eq (cs : List Char) : kinds cs = (lexemes .body cs).map Prod.fst := by
  rw [← map_lexeme_tokens .body ⟨1, 1⟩, List.map_map]
  rfl

/-! ## Kinds of a line -/

theorem map_fst_fusedFrom_sublist (a : Kind × List Char) (r : List (Kind × List Char)) :
    ((fusedFrom a r).map Prod.fst).Sublist ((a :: r).map Prod.fst) := by
  induction r generalizing a with
  | nil => exact List.Sublist.refl _
  | cons b r ih =>
    rw [fusedFrom]
    split
    · next hg =>
      refine (ih _).trans ?_
      rw [List.map_cons, List.map_cons, (glues_iff.1 hg).1]
      exact ((List.sublist_cons_self b r).map _).cons_cons _
    · exact (ih b).cons_cons _

theorem count_fusedFrom {k : Kind} (hn : k ≠ .number) (hd : k ≠ .dot) (a : Kind × List Char)
    (r : List (Kind × List Char)) :
    ((fusedFrom a r).map Prod.fst).count k = ((a :: r).map Prod.fst).count k := by
  induction r generalizing a with
  | nil => rfl
  | cons b r ih =>
    rw [fusedFrom]
    split
    · next hg =>
      obtain ⟨ha, hb⟩ := glues_iff.1 hg
      have hb : b.1 ≠ k := by
        rcases hb with hb | ⟨hb, -⟩
        · exact fun h => hd (h.symm.trans hb)
        · exact fun h => hn (h.symm.trans hb)
      rw [ih, List.map_cons, List.map_cons, List.map_cons, ha, List.count_cons, List.count_cons,
        List.count_cons_of_ne hb]
    · simp only [List.map_cons, List.count_cons, ih]

theorem map_fst_neat (ls : List (Kind × List Char)) :
    (ls.map neat).map Prod.fst = ls.map Prod.fst := by
  rw [List.map_map]
  exact List.map_congr_left fun l _ => neat_fst l

/-- A line is read as its row, up to numbers. -/
theorem Row.exists_kinds {row : List (Kind × List Char)} (h : Row row)
    (hrow : ∀ l ∈ row, Spelled l.1 l.2) (level : Int) :
    ∃ t q, row = t :: q ∧
      kinds (makeLine [rowText row] level) = (fusedFrom (neat t) (q.map neat)).map Prod.fst := by
  obtain ⟨t, q, rfl⟩ := List.exists_cons_of_ne_nil h.ne_nil
  refine ⟨t, q, rfl, ?_⟩
  have hread := h.lexemes_makeLine hrow level []
  rw [unlines_singleton, unlines_nil, lexemes_nil, List.append_nil] at hread
  rw [kinds_eq, hread]
  rfl

theorem Spelled.newline_not_mem {k : Kind} {w : List Char} (h : Spelled k w)
    (hk : k = .string → '\n' ∉ w) : '\n' ∉ w := by
  cases h with
  | comment hw => simpa using hw
  | string => exact hk rfl
  | number hc hr =>
    intro hm
    rcases List.mem_cons.1 hm with rfl | hm
    · rcases hc with hc | ⟨hc, -⟩
      · exact absurd hc (by decide)
      · exact absurd hc (by decide)
    · exact absurd (hr _ hm) (by decide)
  | word hc hr =>
    intro hm
    rcases List.mem_cons.1 hm with rfl | hm
    · rcases hc with hc | hc
      · exact absurd hc (by decide)
      · exact absurd hc (by decide)
    · exact absurd (hr _ hm) (by decide)
  | pair hp =>
    intro hm
    rcases List.mem_pair.1 hm with rfl | rfl
    · simp [pair?] at hp
    · simp [pair?] at hp
  | single hp =>
    intro hm
    rw [← List.mem_singleton.1 hm] at hp
    cases hp

theorem mem_rowText {row : List (Kind × List Char)} {c : Char} (h : c ∈ rowText row) :
    c = ' ' ∨ ∃ l ∈ row, c ∈ l.2 := by
  induction row using List.reverseRecOn with
  | nil => cases h
  | append_singleton init l ih =>
    have hbefore : ∀ m w, c ∈ before m w → c = ' ' ∨ c ∈ w := by
      intro m w hm
      cases m with
      | opensBlock | operator => simpa [before, or_comm] using hm
      | closesBlock | endsStatement | separator | opener => exact .inr hm
      | remark | headword | word =>
        rw [before, spacedText] at hm
        split at hm
        · exact .inr hm
        · simpa [or_comm] using hm
      | closer =>
        rw [before, tightText] at hm
        split at hm
        · exact .inr (mem_of_mem_trimRight hm)
        · exact .inr hm
    rw [rowText_concat, joined] at h
    rcases List.mem_append.1 h with h | h
    · rcases List.mem_append.1 h with h | h
      · rcases hbefore _ _ h with h | h
        · exact .inl h
        · rcases ih h with hc | ⟨t, ht, hc⟩
          · exact .inl hc
          · exact .inr ⟨t, List.mem_append_left _ ht, hc⟩
      · exact .inr ⟨l, by simp, h⟩
    · exact .inl (mem_after h)

/-! ## Lines among lines -/

theorem levelPast_eq (ls : List (Kind × List Char)) (level : Int) :
    levelPast ls level =
      level + (ls.map Prod.fst).count .lbrace - (ls.map Prod.fst).count .rbrace := by
  induction ls generalizing level with
  | nil => simp [levelPast]
  | cons l r ih =>
    rw [levelPast, List.foldl_cons, ← levelPast, ih, List.map_cons]
    cases hk : l.1 <;> simp [levelAfter, manner] <;> omega

theorem Row.count_kinds {row : List (Kind × List Char)} (h : Row row)
    (hrow : ∀ l ∈ row, Spelled l.1 l.2) (level : Int) {k : Kind} (hn : k ≠ .number)
    (hd : k ≠ .dot) :
    (kinds (makeLine [rowText row] level)).count k = (row.map Prod.fst).count k := by
  obtain ⟨t, q, rfl, hkinds⟩ := h.exists_kinds hrow level
  rw [hkinds, count_fusedFrom hn hd, ← List.map_cons, map_fst_neat]

/-- A line of code is the row behind the lexemes of the lines before it. -/
theorem Rows.exists_split {level : Int} {ls : List (Kind × List Char)}
    (hls : ∀ l ∈ ls, Spelled l.1 l.2) {pre post : List (List Char)} {line : List Char}
    (h : Rows level ls (pre ++ line :: post)) :
    ∃ us row vs, ls = us ++ (row ++ vs) ∧ Row row ∧ line = makeLine [rowText row]
    (levelAt row (levelPast us level)) ∧
      ∀ k, k ≠ .number → k ≠ .dot → (pre.flatMap kinds).count k = (us.map Prod.fst).count k := by
  induction pre generalizing level ls with
  | nil =>
    cases h with
    | cons hrow => exact ⟨[], _, _, rfl, hrow, rfl, fun _ _ _ => rfl⟩
  | cons p pre ih =>
    cases h with
    | @cons _ first _ _ hfirst _ hrest =>
      obtain ⟨hspelled, hls⟩ := List.forall_mem_append.1 hls
      obtain ⟨us, row, vs, rfl, hrow, hline, hcount⟩ := ih hls hrest
      refine ⟨first ++ us, row, vs, by simp, hrow, by simpa [levelPast] using hline,
        fun k hn hd => ?_⟩
      rw [List.flatMap_cons, List.count_append, hfirst.count_kinds hspelled _ hn hd, hcount k hn hd,
        List.map_append, List.count_append]

theorem indentationOf_natCast (n : Nat) : indentationOf n = List.replicate (4 * n) ' ' := by
  induction n with
  | zero => rfl
  | succ n ih =>
    have hstep : indentationOf (n + 1 : Nat) = indentation ++ indentationOf n := by
      simp [indentationOf, List.replicate_succ]
    rw [hstep, ih, show 4 * (n + 1) = 4 + 4 * n by omega, List.replicate_add]
    rfl

theorem closes_iff {l : Kind × List Char} : closes l = true ↔ l.1 = .rbrace := by
  unfold closes
  cases l.1 <;> decide

/-- The place of a token in its line: only the last one breaks it, only the first one closes a
block, and then an `else` follows. -/
theorem Row.kinds_placed {row : List (Kind × List Char)} (h : Row row)
    (hrow : ∀ l ∈ row, Spelled l.1 l.2) (level : Int) {ks : List Kind}
    (hks : kinds (makeLine [rowText row] level) = ks) :
    (∀ k ∈ ks.dropLast, breaks (manner k) = false) ∧ .rbrace ∉ ks.tail ∧
      (ks.head? = some .rbrace ↔ row.head?.any closes = true) ∧
      (ks.head? = some .rbrace → ∀ k ∈ ks.tail.head?, k = .kwElse) := by
  obtain ⟨t, q, rfl, hkinds⟩ := h.exists_kinds hrow level
  rw [hks] at hkinds
  have hsub : ks.Sublist ((t :: q).map Prod.fst) := by
    rw [hkinds, ← map_fst_neat (t :: q)]
    exact map_fst_fusedFrom_sublist ..
  have hhead : ks.head? = some t.1 := by rw [hkinds, List.head?_map, head?_fusedFrom, neat_fst]
  have hclose : ks.head? = some .rbrace ↔ closes t = true := by
    rw [hhead, Option.some_inj, closes_iff]
  refine ⟨fun k hk => ?_, fun hk => ?_, hclose, fun hbrace k hk => ?_⟩
  · have hinit : ks.dropLast.Sublist ((t :: q).map Prod.fst).dropLast := by
      rw [← List.reverse_sublist, ← List.tail_reverse, ← List.tail_reverse]
      exact hsub.reverse.tail
    rw [← List.map_dropLast] at hinit
    obtain ⟨l, hl, rfl⟩ := List.mem_map.1 (hinit.subset hk)
    exact h.last l hl
  · obtain ⟨l, hl, hbrace⟩ := List.mem_map.1 (hsub.tail.subset hk)
    have hfirst := h.first l hl
    rw [closes_iff.2 hbrace] at hfirst
    cases hfirst
  · have hbrace := hclose.1 hbrace
    cases q with
    | nil => simp [hkinds, fusedFrom] at hk
    | cons l r =>
      have hg : glues (neat t) (neat l) = false := by simp [glues, neat_fst, closes_iff.1 hbrace]
      have hnext : ks.tail.head? = some l.1 := by
        rw [hkinds, List.map_cons, fusedFrom, hg, if_neg (by decide), List.map_cons, List.tail_cons,
          List.head?_map, head?_fusedFrom, neat_fst]
      rw [hnext] at hk
      cases hk
      exact h.next hbrace l rfl

/-- No line holds a line feed if no string does. -/
theorem newline_not_mem_statements {content : List Char}
    (hspelled : ∀ l ∈ lexemes .body content, Spelled l.1 l.2)
    (hstring : ∀ l ∈ lexemes .body content, l.1 = .string → '\n' ∉ l.2) {level : Int} :
    ∀ line ∈ statements level content, '\n' ∉ line := by
  intro line hline hm
  obtain ⟨row, n, hrow, hsub, rfl⟩ := (rows_statements level content).exists_row hline
  rw [makeLine, List.flatten_singleton] at hm
  split at hm
  · cases hm
  · rcases List.mem_append.1 hm with hm | hm
    · exact absurd (mem_indentationOf hm) (by decide)
    · rcases mem_rowText (mem_of_mem_trim hm) with hm | ⟨l, hl, hm⟩
      · exact absurd hm (by decide)
      · exact Spelled.newline_not_mem (hspelled l (hsub hl)) (hstring l (hsub hl)) hm

/-- Where no brace is closed that was not opened, the level of a line is that of the braces before
it. -/
theorem levelAt_levelPast {us row vs : List (Kind × List Char)}
    (h : ∀ ks, ks <+: (us ++ (row ++ vs)).map Prod.fst → ks.count .rbrace ≤ ks.count .lbrace)
    (base : Nat) : ∃ n : Nat, levelAt row (levelPast us base) = n ∧
      n + (us.map Prod.fst).count .rbrace + (if row.head?.any closes then 1 else 0) =
        base + (us.map Prod.fst).count .lbrace := by
  rw [levelAt, levelPast_eq]
  split
  · next hclose =>
    obtain ⟨l, hl, hbrace⟩ := (Option.any_eq_true ..).1 hclose
    obtain ⟨q, rfl⟩ := List.head?_eq_some_iff.1 hl
    have hle := h ((us ++ [l]).map Prod.fst) (by simp)
    rw [List.map_append, List.count_append, List.count_append, List.map_singleton,
      closes_iff.1 hbrace] at hle
    simp at hle
    exact ⟨base + (us.map Prod.fst).count .lbrace - (us.map Prod.fst).count .rbrace - 1,
      by omega, by omega⟩
  · have hle := h (us.map Prod.fst) (by simp)
    exact ⟨base + (us.map Prod.fst).count .lbrace - (us.map Prod.fst).count .rbrace,
      by omega, by omega⟩

/-- **Layout of code.** In code without invalid tokens, strings over several lines and braces that
close nothing, no line ends with a blank. An opening brace, a semicolon or a comment ends its line,
a closing brace starts its line, and only an `else` follows it there. A line is indented by four
blanks for the base and for every brace that was opened and not closed in the lines before it, not
counting one that it closes itself. -/
theorem statements_line {base : Nat} {content : List Char} (hsome : kinds content ≠ [])
    (hvalid : .invalid ∉ kinds content)
    (hstring : ∀ t ∈ (lex .body ⟨1, 1⟩ content).tokens, t.kind = .string → '\n' ∉ t.text.toList)
    (hbraces : ∀ ks, ks <+: kinds content → ks.count .rbrace ≤ ks.count .lbrace)
    {pre post : List (List Char)} {line : List Char}
    (h : lines (unlines (statements base content)) = pre ++ line :: post) :
    (∀ c ∈ line.getLast?, isBlank c = false) ∧
      (∀ k ∈ (kinds line).dropLast, k ∉ [.lbrace, .semicolon, .comment]) ∧
      .rbrace ∉ (kinds line).tail ∧
        ((kinds line).head? = some .rbrace → ∀ k ∈ (kinds line).tail.head?, k = .kwElse) ∧
      ∃ n text, line = List.replicate (4 * n) ' ' ++ text ∧ (∃ c ∈ text.head?, isBlank c = false) ∧
        n + (pre.flatMap kinds).count .rbrace +
          (if (kinds line).head? = some .rbrace then 1 else 0) =
          base + (pre.flatMap kinds).count .lbrace := by
  rw [kinds_eq] at hsome hvalid hbraces
  have hspelled : ∀ l ∈ lexemes .body content, Spelled l.1 l.2 := fun l hl =>
    spelled_of_mem_lexemes hl fun hk => hvalid (List.mem_map.2 ⟨l, hl, hk⟩)
  have hstring : ∀ l ∈ lexemes .body content, l.1 = .string → '\n' ∉ l.2 := by
    rw [← map_lexeme_tokens .body ⟨1, 1⟩]
    exact List.forall_mem_map.2 hstring
  have hrows := rows_statements base content
  have hne : statements base content ≠ [] := by
    intro hnil
    rw [hnil] at hrows
    generalize lexemes .body content = ls at hrows hsome
    cases hrows
    exact hsome rfl
  rw [lines_unlines hne, flatMap_lines_of_not_mem (newline_not_mem_statements hspelled hstring)]
    at h
  rw [h] at hrows
  obtain ⟨us, row, vs, hsplit, hrow, hline, hcount⟩ := hrows.exists_split hspelled
  rw [hsplit] at hbraces
  have hmem : ∀ l ∈ row, l ∈ lexemes .body content := fun l hl => by simp [hsplit, hl]
  obtain ⟨hlast, hfirst, hclose, hnext⟩ :=
    hrow.kinds_placed (fun l hl => hspelled l (hmem l hl)) _ (congrArg kinds hline.symm)
  obtain ⟨n, hlevel, hn⟩ := levelAt_levelPast hbraces base
  obtain ⟨htext, hne⟩ :=
    makeLine_eq (hrow.not_allBlank_rowText fun l hl => (proper_of_mem_lexemes (hmem l hl)).ink) n
  rw [hlevel, htext, indentationOf_natCast] at hline
  have htrim := trimmed_trim (rowText row)
  refine ⟨?_, fun k hk => ?_, hfirst, hnext, n, trim (rowText row), hline, ?_, ?_⟩
  · rw [hline, List.getLast?_append_of_ne_nil _ hne]
    exact htrim.2
  · have hquiet := hlast k hk
    revert hquiet
    cases k <;> decide
  · obtain ⟨c, r, hc⟩ := List.exists_cons_of_ne_nil hne
    rw [hc] at htrim ⊢
    exact ⟨c, rfl, htrim.1 c rfl⟩
  · rw [hcount _ (by decide) (by decide), hcount _ (by decide) (by decide), ← hn]
    simp only [hclose]

/-- Code with two blocks in one line. -/
def bracedCode : List Char := "if(a)\x7bb=1.5;\x7delse\x7bc();\x7d".toList

theorem statements_line_bracedCode :
    lines (unlines (statements 1 bracedCode)) =
      ["    if (a) \x7b".toList, "        b = 1.5;".toList] ++ "    \x7d else \x7b".toList ::
      ["        c();".toList, "    \x7d".toList] ∧
        .rbrace ∉ (kinds "    \x7d else \x7b".toList).tail := by
  have hlines :
      lines (unlines (statements 1 bracedCode)) =
        ["    if (a) \x7b".toList, "        b = 1.5;".toList] ++
      "    \x7d else \x7b".toList :: ["        c();".toList, "    \x7d".toList] := by decide +kernel
  have hbraces : ∀ ks ∈ (kinds bracedCode).inits, ks.count .rbrace ≤ ks.count .lbrace := by
    decide +kernel
  have hline := statements_line (by decide +kernel) (by decide +kernel) (by decide +kernel)
    (fun ks hks => hbraces ks ((List.mem_inits ks _).2 hks)) hlines
  exact ⟨hlines, hline.2.2.1⟩

end Partitura.Layout
