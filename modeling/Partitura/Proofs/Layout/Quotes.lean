import Partitura.Layout.Plugin
import Partitura.Proofs.Layout.Rows
import Partitura.Proofs.Text.Escapes

/-!
# Quotes that end a member

The text of a member ends at the first double quote that is not escaped (`exists_of_quoteAt?`,
`quoteAt?_append`). The layout of code brings no quote to light: if there is no bare quote in the
code, there is none in its lines (`scan_of_mem_statements`).
-/

namespace Partitura.Layout

open ManuScript ManuScript.Lexer Text

variable {c : Char} {cs w : List Char}

/-! ## The quote that ends a text -/

theorem quoteAt?_cons (hc : c ≠ '\\') (r : List Char) :
    quoteAt? (c :: r) = if c == '"' then some 0 else (quoteAt? r).map (· + 1) := by
  rw [quoteAt?.eq_4 _ _ (fun h => absurd h hc) (fun _ _ h => absurd h hc)]

/-- The text in front of the quote that is found, and what follows. -/
theorem exists_of_quoteAt? {n : Nat} (h : quoteAt? cs = some n) :
    ∃ t rest, cs = t ++ '"' :: rest ∧ t.length = n ∧ scan false t = some false := by
  fun_induction quoteAt? cs generalizing n with
  | case1 => cases h
  | case2 => cases h
  | case3 e r ih =>
    obtain ⟨m, hm, rfl⟩ := Option.map_eq_some_iff.1 h
    obtain ⟨t, rest, rfl, rfl, hs⟩ := ih hm
    exact ⟨'\\' :: e :: t, rest, rfl, rfl, by simpa [scan] using hs⟩
  | case4 c r hne hne' hq =>
    cases h
    exact ⟨[], r, by rw [eq_of_beq hq]; rfl, rfl, rfl⟩
  | case5 c r hne hne' hq ih =>
    obtain ⟨m, hm, rfl⟩ := Option.map_eq_some_iff.1 h
    obtain ⟨t, rest, rfl, rfl, hs⟩ := ih hm
    have hc := ne_backslash hne hne'
    exact ⟨c :: t, rest, rfl, rfl, by simpa [scan, hc, hq] using hs⟩

/-- The quote behind a text without bare quotes, at whose end it is not escaped, is the one that is
found. -/
theorem quoteAt?_append {t : List Char} (h : scan false t = some false) (rest : List Char) :
    quoteAt? (t ++ '"' :: rest) = some t.length := by
  fun_induction quoteAt? t with
  | case1 => simp [quoteAt?]
  | case2 => cases h
  | case3 e r ih => simp [quoteAt?, ih h]
  | case4 c r hne hne' hq => simp [scan, ne_backslash hne hne', hq] at h
  | case5 c r hne hne' hq ih =>
    have hc := ne_backslash hne hne'
    have hr : scan false r = some false := by simpa [scan, hc, hq] using h
    rw [List.cons_append, quoteAt?_cons hc, if_neg hq, ih hr]
    simp

theorem quoteAt?_eq_none_iff : quoteAt? cs = none ↔ scan false cs ≠ none := by
  fun_induction quoteAt? cs with
  | case1 => simp
  | case2 => simp [scan]
  | case3 e r ih => simpa [scan] using ih
  | case4 c r hne hne' hq => simp [scan, ne_backslash hne hne', hq]
  | case5 c r hne hne' hq ih => simpa [scan, ne_backslash hne hne', hq] using ih

/-! ## Quotes in code -/

/-- A lexeme without a bare quote, at whose end nothing is escaped unless it is a comment. -/
structure Quiet (l : Kind × List Char) : Prop where
  noQuote : scan false l.2 ≠ none
  settled : l.1 ≠ .comment → scan false l.2 = some false

theorem scan_stringRest {oneLine : Bool} {q : Char} (h : stringRest oneLine q cs = (w, true))
    (hs : scan false cs ≠ none) : scan false w = some false := by
  fun_induction stringRest oneLine q cs generalizing w with
  | case1 => simp at h
  | case2 => simp at h
  | case3 e r t closed hr ih =>
    simp only [Prod.mk.injEq] at h
    obtain ⟨rfl, rfl⟩ := h
    simpa [scan] using ih hr (by simpa [scan] using hs)
  | case4 c r hne hne' hcq =>
    simp only [Prod.mk.injEq, and_true] at h
    rw [← h]
    have hc := ne_backslash hne hne'
    by_cases hd : c = '"'
    · simp [scan, hd] at hs
    · simp [scan, hc, hd]
  | case5 => simp at h
  | case6 c r hne hne' hcq hn t closed hr ih =>
    simp only [Prod.mk.injEq] at h
    obtain ⟨rfl, rfl⟩ := h
    have hc := ne_backslash hne hne'
    by_cases hd : c = '"'
    · simp [scan, hd] at hs
    · simpa [scan, hc, hd] using ih hr (by simpa [scan, hc, hd] using hs)

theorem ne_backslash_quote_of_class {p : Char → Bool} (hp : ['\\', '"'].all (!p ·) = true)
    (hc : p c = true) : c ≠ '\\' ∧ c ≠ '"' :=
  ⟨ne_of_mem_of_class hc hp _ (by simp), ne_of_mem_of_class hc hp _ (by simp)⟩

/-- Only comments and strings have quotes or backslashes in them. -/
theorem ne_backslash_quote_of_mem {k : Kind} (h : Spelled k w) (hc : k ≠ .comment)
    (hs : k ≠ .string) : ∀ c ∈ w, c ≠ '\\' ∧ c ≠ '"' := by
  cases h with
  | comment => exact absurd rfl hc
  | string => exact absurd rfl hs
  | number hd hr =>
    refine List.forall_mem_cons.2
      ⟨?_, fun x hx => ne_backslash_quote_of_class (by decide) (hr x hx)⟩
    rcases hd with hd | ⟨rfl, -⟩
    · exact ne_backslash_quote_of_class (by decide) hd
    · decide
  | word hd hr =>
    refine List.forall_mem_cons.2
      ⟨?_, fun x hx => ne_backslash_quote_of_class (by decide) (hr x hx)⟩
    rcases hd with hd | rfl
    · exact ne_backslash_quote_of_class (by decide) hd
    · decide
  | pair hp =>
    have hall : ∀ x ∈ [('<', '=', Kind.lte), ('>', '=', .gte), ('!', '=', .neq)],
        [x.1, x.2.1].all (fun c => decide (c ≠ '\\' ∧ c ≠ '"')) = true := by decide
    exact forall_mem_of_all (hall _ (pair?_cases hp))
  | single hd =>
    have hall : ∀ c ∈ "=+*%&<>.:()\x7b\x7d[],;!".toList, c ≠ '\\' ∧ c ≠ '"' :=
      forall_mem_of_all (by decide)
    intro x hx
    rw [List.mem_singleton.1 hx]
    rcases single?_cases hd with hd | hd | hd
    · cases hd
      decide
    · cases hd
      decide
    · exact hall _ hd

theorem scan_of_string (h : Spelled .string w) (hs : scan false w ≠ none) :
    scan false w = some false := by
  obtain ⟨q, v, rfl, rfl | rfl, hv⟩ := h.exists_of_string
  · have hscan := scan_stringRest hv hs
    simpa [scan] using hscan
  · exact absurd rfl hs

theorem quiet_of_spelled {k : Kind} (h : Spelled k w) (hs : scan false w ≠ none) :
    Quiet (k, w) := by
  refine ⟨hs, fun hc => ?_⟩
  by_cases hk : k = .string
  · subst hk
    exact scan_of_string h hs
  · rw [scan_of_forall (ne_backslash_quote_of_mem h hc hk)]
    simp

/-- Behind a comment nothing is escaped any more. -/
theorem scan_dropWhile_newline (e : Bool) (r : List Char) :
    (scan e (r.dropWhile (· != '\n')) = none ↔ scan false (r.dropWhile (· != '\n')) = none) := by
  cases hd : r.dropWhile (· != '\n') with
  | nil => simp
  | cons y t =>
    have hy : y = '\n' := by simpa [hd] using List.head?_dropWhile_not (· != '\n') r
    rw [hy, scan_newline, scan_newline]

theorem scan_gap (h : isGap c = true) : scan false [c] = some false := by
  rw [scan_of_forall
    fun x hx => by rw [List.mem_singleton.1 hx]; exact ne_backslash_quote_of_class (by decide) h]
  simp

/-- The lexemes of code that has neither issues nor bare quotes. -/
theorem quiet_of_mem_lexemes (hs : scan false cs ≠ none) (hok : Faultless .body cs) :
    ∀ l ∈ lexemes .body cs, Quiet l := by
  fun_induction pieces .body cs with
  | case1 => simp
  | case2 c r ih =>
    obtain ⟨hp, hrest⟩ := faultless_cons.1 hok
    have hsplit := append_drop_of_isPrefix (text_front_isPrefix .body c r)
    rw [← hsplit, scan_append] at hs
    cases hf : front .body c r with
    | gap x =>
      obtain ⟨rfl, hgap⟩ := first_of_front_gap hf
      rw [hf] at hs hrest ih
      rw [lexemes_of_front_gap hf]
      exact ih (by simpa [Piece.text, scan_gap hgap] using hs) hrest
    | stray x =>
      rw [hf] at hp
      cases hp
    | token k x v =>
      obtain rfl := first_of_front_token hf
      have hk : k ≠ .invalid := by
        rw [hf] at hp
        simpa [isFaulty] using hp
      rw [hf] at hs hrest ih
      have hv : scan false (x :: v) ≠ none := by
        intro hn
        exact hs (by rw [Piece.text, hn]; rfl)
      have hquiet := quiet_of_spelled (spelled_of_front hf hk) hv
      rw [lexemes_of_front_token hf, List.forall_mem_cons]
      refine ⟨hquiet, ih ?_ hrest⟩
      by_cases hc : k = .comment
      · -- a comment may end with a backslash, but what follows starts with a line feed
        subst hc
        obtain ⟨e, he⟩ := Option.ne_none_iff_exists'.1 hv
        rw [Piece.text, he, Option.bind_some, drop_of_front_comment hf, ne_eq,
          scan_dropWhile_newline] at hs
        rwa [Piece.text, drop_of_front_comment hf]
      · rwa [Piece.text, hquiet.settled hc, Option.bind_some] at hs

/-! ## Quotes in lines -/

/-- An open line without a bare quote; nothing is escaped at its end, with or without the blanks
there. -/
def Calm (w : List Char) : Prop := scan false w = some false ∧ scan false (trimRight w) = some false

theorem calm_nil : Calm [] := ⟨rfl, rfl⟩

theorem scan_spaces {g : List Char} (h : ∀ c ∈ g, c = ' ') : scan false g = some false := by
  rw [scan_of_forall fun c hc => by rw [h c hc]; decide]
  simp

theorem scan_before (h : Calm w) (m : Manner) : scan false (before m w) = some false := by
  have hsp : scan false (w ++ [' ']) = some false := by
    rw [scan_append, h.1, Option.bind_some, scan_spaces (by simp)]
  cases m with
  | opensBlock | operator => exact hsp
  | closesBlock | endsStatement | separator | opener => exact h.1
  | remark | headword | word =>
    rw [before, spacedText]
    split
    · exact h.1
    · exact hsp
  | closer =>
    rw [before, tightText]
    split
    · exact h.2
    · exact h.1

theorem calm_joined (h : Calm w) {l : Kind × List Char} (hl : Spelled l.1 l.2) (hq : Quiet l)
    (hc : l.1 ≠ .comment) (m : Manner) : Calm (joined m w l.2) := by
  have htext : scan false (before m w ++ l.2) = some false := by
    rw [scan_append, scan_before h, Option.bind_some, hq.settled hc]
  constructor
  · rw [joined, scan_append, htext, Option.bind_some, scan_spaces fun _ => mem_after]
  · rw [joined, trimRight_append_of_allBlank _ (allBlank_of_spaces fun _ => mem_after),
      trimRight_append_of_last _ hl.ne_nil (hl.last hc), htext]

theorem scan_makeLine (h : scan false w ≠ none) (level : Int) :
    scan false (makeLine [w] level) ≠ none := by
  rw [makeLine, List.flatten_singleton]
  split
  · simp
  · rwa [scan_allBlank_append (allBlank_of_spaces fun _ => mem_indentationOf), ne_eq,
      scan_trim_eq_none]

theorem calm_rowText {row : List (Kind × List Char)} (h : ∀ l ∈ row, Spelled l.1 l.2 ∧ Quiet l)
    (hc : ∀ l ∈ row, breaks (manner l.1) = false) : Calm (rowText row) := by
  induction row using List.reverseRecOn with
  | nil => exact calm_nil
  | append_singleton init l ih =>
    obtain ⟨hinit, hl⟩ := List.forall_mem_append.1 h
    obtain ⟨hcinit, hcl⟩ := List.forall_mem_append.1 hc
    obtain ⟨hspelled, hquiet⟩ := hl l (by simp)
    have hcomment : l.1 ≠ .comment := fun hk => by
      have hb := hcl l (by simp)
      rw [hk] at hb
      cases hb
    rw [rowText_concat]
    exact calm_joined (ih hinit hcinit) hspelled hquiet hcomment _

/-- No line of code has a bare quote if the code has neither issues nor a bare quote. -/
theorem scan_of_mem_statements {content : List Char} (hok : Faultless .body content)
    (hs : scan false content ≠ none) {level : Int} {line : List Char}
    (hm : line ∈ statements level content) : scan false line ≠ none := by
  obtain ⟨row, n, hrow, hsub, rfl⟩ := (rows_statements level content).exists_row hm
  have hlexemes : ∀ l ∈ row, Spelled l.1 l.2 ∧ Quiet l := fun l hl =>
    ⟨spelled_of_mem_lexemes (hsub hl) (ne_invalid_of_mem_lexemes hok l (hsub hl)),
      quiet_of_mem_lexemes hs hok l (hsub hl)⟩
  -- only the last lexeme of a line can be a comment, which may end with a backslash
  obtain ⟨init, l, rfl⟩ := (List.eq_nil_or_concat' row).resolve_left hrow.ne_nil
  obtain ⟨hinit, hl⟩ := List.forall_mem_append.1 hlexemes
  have hcalm := calm_rowText hinit (by simpa using hrow.last)
  refine scan_makeLine ?_ n
  rw [rowText_concat, joined, ne_eq,
    scan_append_allBlank_eq_none (allBlank_of_spaces fun _ => mem_after), scan_append,
    scan_before hcalm]
  exact (hl l (by simp)).2.noQuote

end Partitura.Layout
