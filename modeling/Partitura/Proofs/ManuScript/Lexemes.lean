import Mathlib.Data.List.TakeWhile
import Partitura.ManuScript.Lexer
import Partitura.Proofs.Text.Blanks
import Partitura.Proofs.Text.Classes

/-!
# Lexemes

How the tokens of the code of a method are spelled, and which characters end them. The lexer takes
the longest token that it can, so a token is read back from its spelling if what follows cannot make
it longer: `mayFollow` says when, and `front_of_spelled` that it is enough. In the other direction
every token that the lexer reads, unclosed strings apart, is spelled as its kind demands
(`spelled_or_unclosed`).
-/

namespace Partitura.ManuScript

variable {k : Kind} {x c q : Char} {r w rest cs v : List Char} {p : Char → Bool}
  {oneLine : Bool} {d : Dialect}

/-- The kinds of words: identifiers and the reserved words. -/
def Kind.isWord : Kind → Bool
  | .identifier | .kwIf | .kwElse | .kwFor | .kwEach | .kwIn | .kwTo | .kwWhile | .kwSwitch
  | .kwCase | .kwDefault
  | .kwReturn | .kwAnd | .kwOr | .kwNot | .kwTrue | .kwFalse | .kwNull => true
  | _ => false

/-- The only spelling of a mark of one character. -/
def Kind.mark? : Kind → Option Char
  | .assign => some '='
  | .plus => some '+'
  | .minus => some '-'
  | .star => some '*'
  | .slash => some '/'
  | .percent => some '%'
  | .ampersand => some '&'
  | .lt => some '<'
  | .gt => some '>'
  | .dot => some '.'
  | .colon => some ':'
  | .lparen => some '('
  | .rparen => some ')'
  | .lbrace => some '\x7b'
  | .rbrace => some '\x7d'
  | .lbracket => some '['
  | .rbracket => some ']'
  | .comma => some ','
  | .semicolon => some ';'
  | _ => none

theorem Kind.mark?_of_isWord (h : k.isWord = true) : k.mark? = none := by
  cases k <;> first | rfl | exact Bool.noConfusion h

theorem Kind.isWord_ofWord (w : String) : (Kind.ofWord w).isWord = true := by
  rw [Kind.ofWord]
  cases h : keywords.lookup w with
  | none => rfl
  | some k =>
    have hall : ∀ p ∈ keywords, p.2.isWord = true := by decide
    obtain ⟨l₁, l₂, hl, -⟩ := List.lookup_eq_some_iff.1 h
    exact hall (w, k) (by rw [hl]; simp)

theorem Kind.ofWord_ne (h : k.isWord = false) (w : String) : Kind.ofWord w ≠ k := by
  rintro rfl
  rw [Kind.isWord_ofWord] at h
  cases h

namespace Lexer

open Text
  (isBlank not_isBlank_of_isDigit not_isBlank_of_isLetter not_isBlank_of_isWordChar
    takeWhile_append_of_head)

/-- The spellings of the tokens of each kind. -/
inductive Spelled : Kind → List Char → Prop where
  | comment {w : List Char} : '\n' ∉ w → Spelled .comment ('/' :: '/' :: w)
  | string {q : Char} {w : List Char} : q = '\'' ∨ q = '"' → stringRest true q w = (w, true) →
    Spelled .string (q :: w)
  | number {c : Char} {r : List Char} :
      Text.isDigit c = true ∨ (c = '-' ∧ r.head?.any Text.isDigit = true) →
      (∀ x ∈ r, isNumberChar x = true) → Spelled .number (c :: r)
  | word {c : Char} {r : List Char} :
      Text.isLetter c = true ∨ c = '_' → (∀ x ∈ r, Text.isWordChar x = true) →
      Spelled (Kind.ofWord (String.ofList (c :: r))) (c :: r)
  | pair {c e : Char} {k : Kind} : pair? c e = some k → Spelled k [c, e]
  | single {c : Char} {k : Kind} : single? .body c = some k → Spelled k [c]

/-- Whether a character may stand right after a token of that kind without becoming part of it. -/
def mayFollow (k : Kind) (x : Char) : Bool :=
  if k.isWord then !Text.isWordChar x
  else match k with
    | .comment => x == '\n'
    | .number => !isNumberChar x
    | .slash => x != '/'
    | .minus => !Text.isDigit x
    | .lt | .gt => x != '='
    | _ => true

/-- Whether a text may stand right after a token of that kind. -/
def Ends (k : Kind) (rest : List Char) : Prop := ∀ x ∈ rest.head?, mayFollow k x = true

theorem ends_nil (k : Kind) : Ends k [] := by simp [Ends]

theorem ends_cons : Ends k (x :: r) ↔ mayFollow k x = true := by simp [Ends]

/-- A line feed ends every token. -/
theorem mayFollow_newline (k : Kind) : mayFollow k '\n' = true := by cases k <;> decide

/-- A space ends every token but a comment. -/
theorem mayFollow_space (h : k ≠ .comment) : mayFollow k ' ' = true := by
  cases k
  case comment => exact absurd rfl h
  all_goals decide

/-! ## Reading a lexeme back -/

theorem ne_of_class {d : Char} (hc : p c = true) (hd : p d = false) : c ≠ d := by
  rintro rfl
  rw [hc] at hd
  exact Bool.noConfusion hd

/-- A character of a class is none of those outside of it. -/
theorem ne_of_mem_of_class (hc : p c = true) {ds : List Char} (hds : ds.all (!p ·) = true) :
    ∀ d ∈ ds, c ≠ d :=
  fun d hd => ne_of_class hc (by simpa using List.all_eq_true.1 hds d hd)

/-- A character that starts no escape, neither a whole one nor one cut off by the end, is no
backslash. -/
theorem ne_backslash (h : c = '\\' → r = [] → False) (h' : ∀ e t, c = '\\' → r = e :: t → False) :
    c ≠ '\\' := by
  intro hc
  cases r with
  | nil => exact h hc rfl
  | cons e t => exact h' e t hc rfl

theorem stringRest_cons (hc : c ≠ '\\') (r : List Char) :
    stringRest oneLine q (c :: r) =
      if c == q then ([c], true)
      else if oneLine && c == '\n' then ([], false)
      else (c :: (stringRest oneLine q r).1, (stringRest oneLine q r).2) := by
  rw [stringRest.eq_4 _ _ _ _ (fun h => absurd h hc) (fun _ _ h => absurd h hc)]

/-- What was read as a closed string is read as one again, whatever follows it. -/
theorem stringRest_append (h : stringRest oneLine q cs = (w, true)) (rest : List Char) :
    stringRest oneLine q (w ++ rest) = (w, true) := by
  fun_induction stringRest oneLine q cs generalizing w with
  | case1 => simp at h
  | case2 => simp at h
  | case3 e r t closed hr ih =>
    simp only [Prod.mk.injEq] at h
    obtain ⟨rfl, rfl⟩ := h
    simp [stringRest, ih hr]
  | case4 c r hne hne' hq =>
    simp only [Prod.mk.injEq, and_true] at h
    rw [← h, List.singleton_append, stringRest_cons (ne_backslash hne hne'), if_pos hq]
  | case5 => simp at h
  | case6 c r hne hne' hq hn t closed hr ih =>
    simp only [Prod.mk.injEq] at h
    obtain ⟨rfl, rfl⟩ := h
    rw [List.cons_append, stringRest_cons (ne_backslash hne hne'), if_neg hq, if_neg hn, ih hr]

theorem pair?_cases {d : Char} (h : pair? c d = some k) :
    (c, d, k) ∈ [('<', '=', Kind.lte), ('>', '=', .gte), ('!', '=', .neq)] := by
  unfold pair? at h
  split at h
  all_goals cases h
  all_goals decide

theorem pair?_eq {d : Char} (h : pair? c d = some k) :
    c = '<' ∧ d = '=' ∧ k = .lte ∨ c = '>' ∧ d = '=' ∧ k = .gte ∨ c = '!' ∧ d = '=' ∧ k = .neq := by
  simpa using pair?_cases h

/-- A mark of one character, where no operator of two characters stands. -/
theorem mark_of_not_pair (h : single? .body c = some k) (hr : r.head?.bind (pair? c) = none) :
    mark .body c r = .token k c [] := by
  unfold mark
  rw [hr]
  simp [h]

/-- A mark of one character is read as such unless a second character makes it longer. -/
theorem mark_of_single (h : single? .body c = some k) (hr : Ends k rest) :
    mark .body c rest = .token k c [] := by
  have hp : rest.head?.bind (pair? c) = none := by
    cases rest with
    | nil => rfl
    | cons x r =>
      have hx := ends_cons.1 hr
      rw [List.head?_cons, Option.bind_some, Option.eq_none_iff_forall_ne_some]
      intro k' hk'
      rcases pair?_eq hk' with ⟨rfl, rfl, -⟩ | ⟨rfl, rfl, -⟩ | ⟨rfl, -, -⟩
      · cases h
        exact absurd hx (by decide)
      · cases h
        exact absurd hx (by decide)
      · cases h
  exact mark_of_not_pair h hp

theorem mark_of_pair {e : Char} (h : pair? c e = some k) (rest : List Char) :
    mark .body c (e :: rest) = .token k c [e] := by
  simp [mark, h]

/-- Characters that start neither a gap, a comment, a string, a number nor a word, whatever
follows. -/
theorem front_of_mark (h : c ∈ "=+*%&<>.:()\x7b\x7d[],;!".toList) (d : Dialect) (rest : List Char) :
    front d c rest = mark d c rest := by
  have hall : ∀ c ∈ "=+*%&<>.:()\x7b\x7d[],;!".toList, isGap c = false ∧ (c == '/') = false ∧
      (c == '\'') = false ∧ (c == '"') = false ∧ (c == '-') = false ∧ Text.isDigit c = false ∧
        Text.isLetter c = false ∧ (c == '_') = false :=
    Text.forall_mem_of_all (by decide)
  obtain ⟨h₁, h₂, h₃, h₄, h₅, h₆, h₇, h₈⟩ := hall c h
  simp [front, h₁, h₂, h₃, h₄, h₅, h₆, h₇, h₈]

theorem single?_cases (h : single? .body c = some k) :
    (c, k) = ('/', .slash) ∨ (c, k) = ('-', .minus) ∨ c ∈ "=+*%&<>.:()\x7b\x7d[],;!".toList := by
  unfold single? at h
  split at h
  all_goals cases h
  all_goals decide

theorem front_of_single (h : single? .body c = some k) (hr : Ends k rest) :
    front .body c rest = .token k c [] := by
  rw [← mark_of_single h hr]
  rcases single?_cases h with hc | hc | hc
  · cases hc
    have hs : (rest.head? == some '/') = false := by
      cases rest with
      | nil => rfl
      | cons x r => simpa [mayFollow, Kind.isWord] using ends_cons.1 hr
    simp [front, hs, show isGap '/' = false by decide, show Text.isDigit '/' = false by decide,
      show Text.isLetter '/' = false by decide]
  · cases hc
    have hs : rest.head?.any Text.isDigit = false := by
      cases rest with
      | nil => rfl
      | cons x r => simpa [mayFollow, Kind.isWord] using ends_cons.1 hr
    simp [front, hs, show isGap '-' = false by decide, show Text.isDigit '-' = false by decide,
      show Text.isLetter '-' = false by decide]
  · exact front_of_mark hc .body rest

/-- What starts neither a gap, a comment nor a string is a number, a word or a mark. -/
theorem front_of_plain (h : ∀ x ∈ " \t\r\n/'\"".toList, c ≠ x) (d : Dialect) (r : List Char) :
    front d c r =
      if Text.isDigit c || (c == '-' && r.head?.any Text.isDigit) then
        .token .number c (r.takeWhile isNumberChar)
      else if Text.isLetter c || c == '_' then
        .token (Kind.ofWord (String.ofList (c :: r.takeWhile Text.isWordChar))) c
          (r.takeWhile Text.isWordChar)
      else mark d c r := by
  have hn : c ≠ ' ' ∧ c ≠ '\t' ∧ c ≠ '\r' ∧ c ≠ '\n' ∧ c ≠ '/' ∧ c ≠ '\'' ∧ c ≠ '"' := by
    simpa using h
  rw [front, if_neg (by simp [isGap, hn]), if_neg (by simp [hn]), if_neg (by simp [hn])]

theorem front_of_number (hc : Text.isDigit c = true ∨ (c = '-' ∧ r.head?.any Text.isDigit = true))
    (hr : ∀ x ∈ r, isNumberChar x = true) (hrest : Ends .number rest) :
    front .body c (r ++ rest) = .token .number c r := by
  have htake : (r ++ rest).takeWhile isNumberChar = r := by
    refine takeWhile_append_of_head hr fun x hx => ?_
    simpa [mayFollow, Kind.isWord] using hrest x hx
  have hstart : (Text.isDigit c || (c == '-' && (r ++ rest).head?.any Text.isDigit)) = true := by
    rcases hc with hc | ⟨rfl, hc⟩
    · simp [hc]
    · cases r with
      | nil => simp at hc
      | cons x r => simpa using .inr hc
  have hne : ∀ d ∈ " \t\r\n/'\"".toList, c ≠ d := by
    rcases hc with hc | ⟨rfl, -⟩
    · exact ne_of_mem_of_class hc (by decide)
    · exact Text.forall_mem_of_all (by decide)
  rw [front_of_plain hne, if_pos hstart, htake]

theorem front_of_word (hc : Text.isLetter c = true ∨ c = '_')
    (hr : ∀ x ∈ r, Text.isWordChar x = true) (hrest : ∀ x ∈ rest.head?, Text.isWordChar x = false) :
    front d c (r ++ rest) = .token (Kind.ofWord (String.ofList (c :: r))) c r := by
  have htake : (r ++ rest).takeWhile Text.isWordChar = r := takeWhile_append_of_head hr hrest
  have hdigit : Text.isDigit c = false := by
    rcases hc with hc | rfl
    · exact Text.not_isDigit_of_isLetter hc
    · decide
  have hstart : (Text.isLetter c || c == '_') = true := by simpa using hc
  have hne : ∀ d ∈ '-' :: " \t\r\n/'\"".toList, c ≠ d := by
    rcases hc with hc | rfl
    · exact ne_of_mem_of_class hc (by decide)
    · exact Text.forall_mem_of_all (by decide)
  obtain ⟨hsign, hplain⟩ := List.forall_mem_cons.1 hne
  rw [front_of_plain hplain, if_neg (by simp [hsign, hdigit]), if_pos hstart, htake]

/-- A token is read back from its spelling, if what follows does not make it longer. -/
theorem front_of_spelled (h : Spelled k (c :: r)) (hrest : Ends k rest) :
    front .body c (r ++ rest) = .token k c r := by
  cases h with
  | @comment w hw =>
    have htake : (w ++ rest).takeWhile (· != '\n') = w := by
      refine takeWhile_append_of_head
        (fun x hx => by simpa using ne_of_mem_of_not_mem hx hw) fun x hx => ?_
      simpa [mayFollow, Kind.isWord] using hrest x hx
    have hgap : isGap '/' = false := by decide
    simp [front, hgap, htake]
  | string hq hw =>
    have hs := stringRest_append hw rest
    rcases hq with rfl | rfl
    · simp [front, hs, show isGap '\'' = false by decide]
    · simp [front, hs, show isGap '"' = false by decide]
  | number hc hr => exact front_of_number hc hr hrest
  | word hc hr =>
    refine front_of_word hc hr fun x hx => ?_
    simpa [mayFollow, Kind.isWord_ofWord] using hrest x hx
  | pair hp =>
    have hmem : c ∈ "=+*%&<>.:()\x7b\x7d[],;!".toList := by
      rcases pair?_eq hp with ⟨rfl, -, -⟩ | ⟨rfl, -, -⟩ | ⟨rfl, -, -⟩ <;> decide
    rw [front_of_mark hmem, List.singleton_append, mark_of_pair hp]
  | single hs => exact front_of_single hs hrest

/-! ## How tokens are spelled -/

theorem spelled_of_mark (h : mark .body c r = .token k c w) : Spelled k (c :: w) := by
  unfold mark at h
  split at h
  · next k' e t hk =>
    cases h
    exact .pair (by simpa using hk)
  · split at h
    · next k' hk =>
      cases h
      exact .single hk
    · cases h

/-- Every token that is read is spelled as its kind demands, or is a string that is not closed. -/
theorem spelled_or_unclosed (h : front .body c r = .token k c w) :
    Spelled k (c :: w) ∨ (k = .invalid ∧ (c = '\'' ∨ c = '"')) := by
  rw [front] at h
  split at h
  · cases h
  split at h
  · next hc =>
    simp only [Bool.and_eq_true, beq_iff_eq] at hc
    obtain ⟨rfl, hr⟩ := hc
    cases r with
    | nil => cases hr
    | cons d r =>
      cases hr
      cases h
      simp only [bne_iff_ne, ne_eq, Char.reduceEq, not_false_eq_true, List.takeWhile_cons_of_pos]
      refine .inl (.comment fun hmem => ?_)
      simpa using List.mem_takeWhile_imp hmem
  split at h
  · next hq =>
    simp only [Bool.or_eq_true, beq_iff_eq] at hq
    cases hs : stringRest true c r with
    | mk t closed =>
      simp only [decide_true, hs] at h
      cases closed with
      | false =>
        cases h
        exact .inr ⟨rfl, hq⟩
      | true =>
        cases h
        exact .inl (.string hq (by simpa using stringRest_append hs []))
  split at h
  · next hd =>
    cases h
    refine .inl (.number ?_ fun x hx => List.mem_takeWhile_imp hx)
    simp only [Bool.or_eq_true, Bool.and_eq_true, beq_iff_eq] at hd
    rcases hd with hd | ⟨hd, hr⟩
    · exact .inl hd
    · refine .inr ⟨hd, ?_⟩
      cases r with
      | nil => simp at hr
      | cons x r => simp [isNumberChar, show Text.isDigit x = true from hr]
  split at h
  · next hl =>
    cases h
    refine .inl (.word ?_ fun x hx => List.mem_takeWhile_imp hx)
    simpa using hl
  · exact .inl (spelled_of_mark h)

theorem spelled_of_front (h : front .body c r = .token k c w) (hk : k ≠ .invalid) :
    Spelled k (c :: w) :=
  (spelled_or_unclosed h).resolve_right fun hc => hk hc.1

theorem mark?_of_single (h : single? .body c = some k) : k.mark? = some c := by
  unfold single? at h
  split at h
  all_goals cases h
  all_goals rfl

/-- A mark is spelled in one way only. -/
theorem Spelled.eq_of_mark? (h : Spelled k w) (hc : k.mark? = some c) : w = [c] := by
  cases h with
  | comment => cases hc
  | string => cases hc
  | number => cases hc
  | word =>
    rw [Kind.mark?_of_isWord (Kind.isWord_ofWord _)] at hc
    cases hc
  | pair hp =>
    rcases pair?_eq hp with ⟨-, -, rfl⟩ | ⟨-, -, rfl⟩ | ⟨-, -, rfl⟩ <;> cases hc
  | single hs =>
    rw [mark?_of_single hs] at hc
    cases hc
    rfl

/-- The spellings of kinds that are neither words nor marks. -/
theorem Spelled.cases_of_plain (h : Spelled k w) (hword : k.isWord = false) (hmark : k.mark? = none)
    (hpair : k ∉ [.lte, .gte, .neq]) :
    (k = .comment ∧ ∃ v, w = '/' :: '/' :: v ∧ '\n' ∉ v) ∨
      (k = .string ∧ ∃ q v, w = q :: v ∧ (q = '\'' ∨ q = '"') ∧ stringRest true q v = (v, true)) ∨
      (k = .number ∧ ∃ c r, w = c :: r ∧
        (Text.isDigit c = true ∨ (c = '-' ∧ r.head?.any Text.isDigit = true)) ∧
        ∀ x ∈ r, isNumberChar x = true) := by
  cases h with
  | comment hv => exact .inl ⟨rfl, _, rfl, hv⟩
  | string hq hv => exact .inr (.inl ⟨rfl, _, _, rfl, hq, hv⟩)
  | number hc hr => exact .inr (.inr ⟨rfl, _, _, rfl, hc, hr⟩)
  | word =>
    rw [Kind.isWord_ofWord] at hword
    cases hword
  | pair hp =>
    have hkind := List.mem_map_of_mem (f := fun x => x.2.2) (pair?_cases hp)
    exact absurd hkind hpair
  | single hs =>
    rw [mark?_of_single hs] at hmark
    cases hmark

/-- The spellings of comments. -/
theorem Spelled.exists_of_comment (h : Spelled .comment w) :
    ∃ v, w = '/' :: '/' :: v ∧ '\n' ∉ v := by
  rcases h.cases_of_plain rfl rfl (by decide) with ⟨-, hv⟩ | ⟨hk, -⟩ | ⟨hk, -⟩
  · exact hv
  · cases hk
  · cases hk

/-- The spellings of strings. -/
theorem Spelled.exists_of_string (h : Spelled .string w) :
    ∃ q v, w = q :: v ∧ (q = '\'' ∨ q = '"') ∧ stringRest true q v = (v, true) := by
  rcases h.cases_of_plain rfl rfl (by decide) with ⟨hk, -⟩ | ⟨-, hv⟩ | ⟨hk, -⟩
  · cases hk
  · exact hv
  · cases hk

/-- The spellings of numbers. -/
theorem Spelled.exists_of_number (h : Spelled .number w) :
    ∃ c r, w = c :: r ∧ (Text.isDigit c = true ∨ (c = '-' ∧ r.head?.any Text.isDigit = true)) ∧
      ∀ x ∈ r, isNumberChar x = true := by
  rcases h.cases_of_plain rfl rfl (by decide) with ⟨hk, -⟩ | ⟨hk, -⟩ | ⟨-, hr⟩
  · cases hk
  · cases hk
  · exact hr

/-! ## Where a token ends -/

theorem head?_drop_takeWhile (p : Char → Bool) (r : List Char) :
    ∀ x ∈ (r.drop (r.takeWhile p).length).head?, p x = false := by
  intro x hx
  have hsplit := List.takeWhile_append_dropWhile (p := p) (l := r)
  have hrest : r.drop (r.takeWhile p).length = r.dropWhile p := by
    conv_lhs => rw [← hsplit, List.drop_left' (by rw [hsplit])]
  rw [hrest] at hx
  have := List.head?_dropWhile_not p r
  rw [hx] at this
  simpa using this

/-- What may stand behind a mark of one character: nothing that makes it a comment, a number or a
mark of two characters. -/
theorem mayFollow_of_single (hs : single? .body c = some k) (hslash : c = '/' → x ≠ '/')
    (hminus : c = '-' → Text.isDigit x = false) (hpair : pair? c x = none) :
    mayFollow k x = true := by
  have hmark := mark?_of_single hs
  cases k with
  | slash =>
    cases hmark
    simpa [mayFollow, Kind.isWord] using hslash rfl
  | minus =>
    cases hmark
    simpa [mayFollow, Kind.isWord] using hminus rfl
  | lt | gt =>
    cases hmark
    refine bne_iff_ne.2 ?_
    rintro rfl
    cases hpair
  | assign | plus | star | percent | ampersand | dot | colon | lparen | rparen | lbrace | rbrace
  | lbracket | rbracket
  | comma | semicolon => rfl
  | _ => cases hmark

theorem ends_of_mark (h : mark .body c r = .token k c v)
    (hslash : ¬(c == '/' && r.head? == some '/') = true)
    (hnumber : ¬(Text.isDigit c || (c == '-' && r.head?.any Text.isDigit)) = true) :
    Ends k (r.drop v.length) := by
  unfold mark at h
  split at h
  · next k' e t hp =>
    cases h
    have hkind :=
      List.mem_map_of_mem (f := fun x => x.2.2)
        (pair?_cases (show pair? c e = some k by simpa using hp))
    simp only [List.map_cons, List.map_nil, List.mem_cons, List.not_mem_nil, or_false] at hkind
    rcases hkind with rfl | rfl | rfl <;> exact fun _ _ => rfl
  · next hpair =>
    split at h
    · next k' hs =>
      cases h
      intro x hx
      rw [List.length_nil, List.drop_zero] at hx
      obtain ⟨t, rfl⟩ := List.head?_eq_some_iff.1 hx
      have hpx : pair? c x = none := by
        cases hpx : pair? c x with
        | none => rfl
        | some k' => exact absurd (hpair k' x t (by simpa using hpx) rfl) id
      refine mayFollow_of_single hs ?_ ?_ hpx
      · rintro rfl
        simpa using hslash
      · rintro rfl
        simpa [show Text.isDigit '-' = false by decide] using hnumber
    · cases h

/-- The next character does not belong to a token that was read, or it would have been read with
it. -/
theorem ends_of_front (h : front .body c r = .token k c v) (hk : k ≠ .invalid) :
    Ends k (r.drop v.length) := by
  rw [front] at h
  split at h
  · cases h
  split at h
  · cases h
    intro x hx
    simpa [mayFollow, Kind.isWord] using head?_drop_takeWhile _ r x hx
  next hslash =>
  split at h
  · cases hs : stringRest true c r with
    | mk t closed =>
      simp only [decide_true, hs] at h
      cases closed with
      | false =>
        cases h
        exact absurd rfl hk
      | true =>
        cases h
        exact fun _ _ => rfl
  split at h
  · cases h
    intro x hx
    simpa [mayFollow, Kind.isWord] using head?_drop_takeWhile _ r x hx
  next hnumber =>
  split at h
  · cases h
    intro x hx
    simpa [mayFollow, Kind.isWord_ofWord] using head?_drop_takeWhile _ r x hx
  · exact ends_of_mark h hslash hnumber

/-! ## Blanks in a spelling -/

/-- The spellings of the marks are not blank. -/
theorem not_isBlank_of_single (h : single? .body c = some k) : isBlank c = false := by
  have hall : ∀ x ∈ "=+*%&<>.:()\x7b\x7d[],;!".toList, isBlank x = false :=
    Text.forall_mem_of_all (by decide)
  rcases single?_cases h with hc | hc | hc
  · cases hc
    decide
  · cases hc
    decide
  · exact hall c hc

theorem not_isBlank_of_pair {e : Char} (h : pair? c e = some k) :
    isBlank c = false ∧ isBlank e = false := by
  have hall : ∀ x ∈ [('<', '=', Kind.lte), ('>', '=', .gte), ('!', '=', .neq)],
      isBlank x.1 = false ∧ isBlank x.2.1 = false := by
    decide
  exact hall _ (pair?_cases h)

theorem not_isBlank_of_isNumberChar (h : isNumberChar c = true) : isBlank c = false := by
  rw [isNumberChar, Bool.or_eq_true] at h
  rcases h with h | h
  · exact not_isBlank_of_isDigit h
  · rw [eq_of_beq h]
    decide

/-- No spelling starts with a blank. -/
theorem Spelled.head (h : Spelled k (c :: r)) : isBlank c = false := by
  cases h with
  | comment => decide
  | string hq => rcases hq with rfl | rfl <;> decide
  | number hc =>
    rcases hc with hc | ⟨rfl, -⟩
    · exact not_isBlank_of_isDigit hc
    · decide
  | word hc =>
    rcases hc with hc | rfl
    · exact not_isBlank_of_isLetter hc
    · decide
  | pair hp => exact (not_isBlank_of_pair hp).1
  | single hs => exact not_isBlank_of_single hs

theorem Spelled.ne_nil (h : Spelled k w) : w ≠ [] := by
  cases h <;> simp

/-- A closed string ends with its quote. -/
theorem getLast?_stringRest (h : stringRest oneLine q cs = (w, true)) : w.getLast? = some q := by
  fun_induction stringRest oneLine q cs generalizing w with
  | case1 => simp at h
  | case2 => simp at h
  | case3 e r t closed hr ih =>
    simp only [Prod.mk.injEq] at h
    obtain ⟨rfl, rfl⟩ := h
    simp [List.getLast?_cons, ih hr]
  | case4 c r hne hne' hq =>
    simp only [Prod.mk.injEq, and_true] at h
    rw [← h, List.getLast?_singleton, eq_of_beq hq]
  | case5 => simp at h
  | case6 c r hne hne' hq hn t closed hr ih =>
    simp only [Prod.mk.injEq] at h
    obtain ⟨rfl, rfl⟩ := h
    simp [List.getLast?_cons, ih hr]

/-- Only a comment may end with a blank. -/
theorem Spelled.last (h : Spelled k w) (hk : k ≠ .comment) :
    ∀ x ∈ w.getLast?, isBlank x = false := by
  intro x hx
  have hmem : x ∈ w := List.mem_of_getLast? hx
  cases h with
  | comment => exact absurd rfl hk
  | @string q t hq ht =>
    rw [List.getLast?_cons, getLast?_stringRest ht] at hx
    cases hx
    rcases hq with rfl | rfl <;> decide
  | number hc hr =>
    rcases List.mem_cons.1 hmem with rfl | hmem
    · exact Spelled.head (.number hc hr)
    · exact not_isBlank_of_isNumberChar (hr x hmem)
  | word hc hr =>
    rcases List.mem_cons.1 hmem with rfl | hmem
    · exact Spelled.head (.word hc hr)
    · exact not_isBlank_of_isWordChar (hr x hmem)
  | pair hp =>
    obtain ⟨hc, he⟩ := not_isBlank_of_pair hp
    simp only [List.mem_cons, List.not_mem_nil, or_false] at hmem
    rcases hmem with rfl | rfl
    · exact hc
    · exact he
  | single hs =>
    rw [List.mem_singleton.1 hmem]
    exact not_isBlank_of_single hs

/-! ## The lexemes of a text -/

/-- The kind and the text of a piece that is a token. -/
def lexeme? : Piece → Option (Kind × List Char)
  | .token k c r => some (k, c :: r)
  | _ => none

/-- The tokens of a text without their places. -/
def lexemes (d : Dialect) (cs : List Char) : List (Kind × List Char) :=
  (pieces d cs).filterMap lexeme?

@[simp] theorem lexemes_nil (d : Dialect) : lexemes d [] = [] := by
  rw [lexemes, pieces]
  rfl

theorem pieces_cons (d : Dialect) (c : Char) (r : List Char) :
    pieces d (c :: r) = front d c r :: pieces d ((c :: r).drop (front d c r).text.length) := by
  rw [pieces]

theorem pieces_append {p : Piece} (ht : p.text = c :: r) (h : front d c (r ++ rest) = p) :
    pieces d (c :: r ++ rest) = p :: pieces d rest := by
  rw [List.cons_append, pieces_cons, h, ht, ← List.cons_append, List.drop_left]

/-- White space between tokens is passed over. -/
theorem lexemes_gap (d : Dialect) (h : isGap c = true) (rest : List Char) :
    lexemes d (c :: rest) = lexemes d rest := by
  have hf : front d c ([] ++ rest) = .gap c := by rw [front, if_pos h]
  rw [lexemes, lexemes, ← List.singleton_append, pieces_append (p := .gap c) rfl hf]
  rfl

theorem lexemes_gaps (d : Dialect) {g : List Char} (h : ∀ c ∈ g, isGap c = true)
    (rest : List Char) : lexemes d (g ++ rest) = lexemes d rest := by
  induction g with
  | nil => rfl
  | cons c g ih =>
    rw [List.cons_append, lexemes_gap d (h c (by simp)), ih fun x hx => h x (by simp [hx])]

theorem lexemes_append_of_front (h : front d c (r ++ rest) = .token k c r) :
    lexemes d (c :: r ++ rest) = (k, c :: r) :: lexemes d rest := by
  rw [lexemes, pieces_append (p := .token k c r) rfl h]
  rfl

/-- A text that starts with a spelling has its token first. -/
theorem lexemes_spelled (h : Spelled k w) (hrest : Ends k rest) :
    lexemes .body (w ++ rest) = (k, w) :: lexemes .body rest := by
  cases w with
  | nil => cases h
  | cons c r => exact lexemes_append_of_front (front_of_spelled h hrest)

theorem exists_front_of_mem_pieces {p : Piece} (h : p ∈ pieces d cs) : ∃ c r, p = front d c r := by
  fun_induction pieces d cs with
  | case1 => cases h
  | case2 c r ih =>
    rcases List.mem_cons.1 h with rfl | h
    · exact ⟨c, r, rfl⟩
    · exact ih h

theorem first_of_front_token (h : front d c r = .token k x v) : x = c := by
  obtain ⟨t, ht⟩ := text_front_isPrefix d c r
  rw [h] at ht
  exact (List.cons.inj ht).1

theorem first_of_front_gap (h : front d c r = .gap x) : x = c ∧ isGap c = true := by
  obtain ⟨t, ht⟩ := text_front_isPrefix d c r
  have hx : x = c := by
    rw [h] at ht
    exact (List.cons.inj ht).1
  refine ⟨hx, ?_⟩
  by_contra hc
  rw [front, if_neg hc] at h
  split at h
  · cases h
  split at h
  · cases h
  split at h
  · cases h
  split at h
  · cases h
  unfold mark at h
  split at h
  · cases h
  · split at h <;> cases h

theorem not_isGap_of_stray (h : front d c r = .stray x) : isGap x = false := by
  obtain ⟨t, ht⟩ := text_front_isPrefix d c r
  rw [h, Piece.text, List.singleton_append, List.cons.injEq] at ht
  rw [ht.1, Bool.eq_false_iff]
  intro hgap
  rw [front, if_pos hgap] at h
  cases h

theorem lexemes_of_front_token (h : front d c r = .token k c v) :
    lexemes d (c :: r) = (k, c :: v) :: lexemes d ((c :: r).drop (c :: v).length) := by
  rw [lexemes, pieces_cons, h]
  rfl

theorem lexemes_of_front_gap (h : front d c r = .gap c) : lexemes d (c :: r) = lexemes d r := by
  rw [lexemes, pieces_cons, h]
  rfl

/-- A blank starts no token. -/
theorem front_of_isBlank (hc : isBlank c = true) (d : Dialect) (r : List Char) :
    front d c r = .gap c ∨ front d c r = .stray c := by
  by_cases hgap : isGap c = true
  · exact .inl (by rw [front, if_pos hgap])
  have hne : ∀ x ∈ "/'\"-_".toList, c ≠ x := ne_of_mem_of_class hc (by decide)
  have hn : c ≠ '/' ∧ c ≠ '\'' ∧ c ≠ '"' ∧ c ≠ '-' ∧ c ≠ '_' := by simpa using hne
  have hdigit : Text.isDigit c = false := by
    by_contra h
    rw [not_isBlank_of_isDigit (by simpa using h)] at hc
    cases hc
  have hletter : Text.isLetter c = false := by
    by_contra h
    rw [not_isBlank_of_isLetter (by simpa using h)] at hc
    cases hc
  have hmark : front d c r = mark d c r := by simp [front, hgap, hn, hdigit, hletter]
  have hpair : ∀ e, pair? c e = none := by
    intro e
    cases hp : pair? c e with
    | none => rfl
    | some k =>
      rw [(not_isBlank_of_pair hp).1] at hc
      cases hc
  have hsingle : single? d c = none := by
    cases hs : single? d c with
    | none => rfl
    | some k =>
      unfold single? at hs
      split at hs
      all_goals first | exact absurd hc (by decide) | cases hs
  have hnone : r.head?.bind (pair? c) = none := by cases r <;> simp [hpair]
  refine .inr ?_
  rw [hmark]
  unfold mark
  rw [hnone]
  simp [hsingle]

theorem lexemes_allBlank_append {a : List Char} (ha : Text.AllBlank a) (d : Dialect)
    (rest : List Char) : lexemes d (a ++ rest) = lexemes d rest := by
  induction a with
  | nil => rfl
  | cons c a ih =>
    obtain ⟨hc, ha⟩ := Text.allBlank_cons.1 ha
    rw [List.cons_append, ← ih ha]
    rcases front_of_isBlank hc d (a ++ rest) with hf | hf
    · exact lexemes_of_front_gap hf
    · rw [lexemes, pieces_cons, hf]
      rfl

/-- A lexeme is a token that stands at the front of some text. -/
theorem exists_front_of_mem_lexemes (h : (k, w) ∈ lexemes d cs) :
    ∃ c r v, w = c :: v ∧ front d c r = .token k c v := by
  obtain ⟨p, hp, hl⟩ := List.mem_filterMap.1 h
  obtain ⟨c, r, rfl⟩ := exists_front_of_mem_pieces hp
  cases hf : front d c r with
  | gap x => rw [hf] at hl; cases hl
  | stray x => rw [hf] at hl; cases hl
  | token k' c' r' =>
    rw [hf] at hl
    cases hl
    obtain rfl := first_of_front_token hf
    exact ⟨c', r, r', rfl, hf⟩

theorem spelled_of_mem_lexemes (h : (k, w) ∈ lexemes .body cs) (hk : k ≠ .invalid) :
    Spelled k w := by
  obtain ⟨c, r, v, rfl, hf⟩ := exists_front_of_mem_lexemes h
  exact spelled_of_front hf hk

/-! ## What is passed over -/

/-- The character of a piece that starts no token. -/
def stray? : Piece → Option Char
  | .stray c => some c
  | _ => none

/-- The characters of a text that are passed over although they are no white space. -/
def strays (d : Dialect) (cs : List Char) : List Char := (pieces d cs).filterMap stray?

theorem isBlank_of_isGap (h : isGap c = true) : isBlank c = true := by
  simp only [isGap, Bool.or_eq_true, beq_iff_eq] at h
  rcases h with ((rfl | rfl) | rfl) | rfl <;> decide

/-- The lexemes of a text are what stays of it, blanks apart, when the stray characters are left
out. -/
theorem leavesOut_lexemes (d : Dialect) (cs : List Char) :
    Text.LeavesOut ((lexemes d cs).flatMap (Text.inked ·.2)) (Text.inked (strays d cs))
    (Text.inked cs) := by
  have hgap : ∀ p ∈ pieces d cs, ∀ c, p = .gap c → isBlank c = true := by
    rintro p hp c rfl
    obtain ⟨x, r, hf⟩ := exists_front_of_mem_pieces hp
    obtain ⟨rfl, hx⟩ := first_of_front_gap hf.symm
    exact isBlank_of_isGap hx
  conv in Text.inked cs => rw [← flatMap_text_pieces d cs]
  rw [lexemes, strays]
  generalize pieces d cs = ps at hgap ⊢
  induction ps with
  | nil => exact Text.leavesOut_nothing []
  | cons p ps ih =>
    have ih := ih fun q hq => hgap q (by simp [hq])
    rw [List.flatMap_cons, Text.inked_append]
    cases p with
    | gap c =>
      have hc : Text.inked [c] = [] := by simp [Text.inked, hgap (.gap c) (by simp) c rfl]
      rw [List.filterMap_cons_none rfl, List.filterMap_cons_none rfl, Piece.text, hc]
      exact ih
    | stray c =>
      rw [List.filterMap_cons_none rfl,
        List.filterMap_cons_some (show stray? (.stray c) = some c from rfl), Piece.text,
        Text.inked_cons]
      exact (Text.leavesOut_all _).append ih
    | token k c r =>
      rw [List.filterMap_cons_some (show lexeme? (.token k c r) = some (k, c :: r) from rfl),
        List.filterMap_cons_none rfl, Piece.text, List.flatMap_cons]
      exact (Text.leavesOut_nothing _).append ih

/-! ## Texts without issues -/

/-- A piece that is no token, or a string that is not closed. -/
def isFaulty : Piece → Bool
  | .gap _ => false
  | .token k _ _ => k = .invalid
  | .stray _ => true

/-- A text none of whose pieces is faulty. -/
def Faultless (d : Dialect) (cs : List Char) : Prop := ∀ q ∈ pieces d cs, isFaulty q = false

instance decidableFaultless (d : Dialect) (cs : List Char) : Decidable (Faultless d cs) :=
  inferInstanceAs (Decidable (∀ q ∈ pieces d cs, isFaulty q = false))

theorem issues_place_eq_nil {p : Position} {ps : List Piece} :
    (place d p ps).filterMap issue? = [] ↔ ∀ q ∈ ps, isFaulty q = false := by
  induction ps generalizing p with
  | nil => simp [place]
  | cons q qs ih =>
    have hq : issue? (p, q) = none ↔ isFaulty q = false := by
      cases q with
      | gap c => simp [issue?, isFaulty]
      | stray c => simp [issue?, isFaulty]
      | token k c r => cases k <;> simp [issue?, isFaulty]
    rw [place, List.forall_mem_cons, ← hq, ← ih (p := afterPiece d p q)]
    cases h : issue? (p, q) with
    | none => simp [List.filterMap_cons_none h]
    | some i => simp [List.filterMap_cons_some h]

/-- A text is lexed without issues if none of its pieces is faulty. -/
theorem issues_eq_nil_iff {p : Position} : (lex d p cs).issues = [] ↔ Faultless d cs :=
  issues_place_eq_nil

theorem faultless_nil (d : Dialect) : Faultless d [] := by
  intro q hq
  rw [pieces] at hq
  cases hq

theorem faultless_cons : Faultless d (c :: r) ↔
    isFaulty (front d c r) = false ∧ Faultless d ((c :: r).drop (front d c r).text.length) := by
  rw [Faultless, pieces_cons, List.forall_mem_cons]
  rfl

theorem faultless_spelled (h : Spelled k w) (hk : k ≠ .invalid) (hends : Ends k rest)
    (hrest : Faultless .body rest) : Faultless .body (w ++ rest) := by
  cases w with
  | nil => exact hrest
  | cons c r =>
    have hf := front_of_spelled h hends
    rw [List.cons_append, faultless_cons, hf]
    exact ⟨by simpa [isFaulty] using hk, by simpa [Piece.text] using hrest⟩

/-- A text without faults starts with white space or with a token. -/
theorem first_of_faultless (h : Faultless .body (c :: r)) :
    (isGap c = true ∧ Faultless .body r) ∨
      ∃ k v t, r = v ++ t ∧ k ≠ .invalid ∧ Spelled k (c :: v) ∧ Ends k t ∧ Faultless .body t := by
  obtain ⟨hfront, hrest⟩ := faultless_cons.1 h
  cases hf : front .body c r with
  | gap x =>
    obtain ⟨rfl, hgap⟩ := first_of_front_gap hf
    rw [hf] at hrest
    exact .inl ⟨hgap, hrest⟩
  | stray x =>
    rw [hf] at hfront
    cases hfront
  | token k x v =>
    obtain rfl := first_of_front_token hf
    have hk : k ≠ .invalid := by
      rw [hf] at hfront
      simpa [isFaulty] using hfront
    obtain ⟨t, ht⟩ := text_front_isPrefix .body x r
    rw [hf, Piece.text, List.cons_append, List.cons.injEq] at ht
    obtain ⟨-, rfl⟩ := ht
    have hends := ends_of_front hf hk
    rw [List.drop_left] at hends
    rw [hf, Piece.text, ← List.cons_append, List.drop_left] at hrest
    exact .inr ⟨k, v, t, rfl, hk, spelled_of_front hf hk, hends, hrest⟩

theorem faultless_gap (hc : isGap c = true) (hr : Faultless .body r) :
    Faultless .body (c :: r) := by
  have hf : front .body c r = .gap c := by rw [front, if_pos hc]
  exact faultless_cons.2 ⟨by rw [hf]; rfl, by rw [hf]; exact hr⟩

theorem ne_invalid_of_mem_lexemes (h : Faultless d cs) : ∀ l ∈ lexemes d cs, l.1 ≠ .invalid := by
  intro l hl hk
  obtain ⟨q, hq, hql⟩ := List.mem_filterMap.1 hl
  have hf := h q hq
  cases q with
  | gap c => cases hql
  | stray c => cases hql
  | token k c r =>
    cases hql
    simp [isFaulty, show k = .invalid from hk] at hf

theorem strays_eq_nil (h : Faultless d cs) : strays d cs = [] := by
  refine List.filterMap_eq_nil_iff.2 fun q hq => ?_
  have hf := h q hq
  cases q with
  | gap c => rfl
  | stray c => cases hf
  | token k c r => rfl

/-- A comment goes on to the end of its line. -/
theorem drop_of_front_comment (h : front .body c r = .token .comment c v) :
    (c :: r).drop (c :: v).length = r.dropWhile (· != '\n') := by
  obtain ⟨u, hu, -⟩ := (spelled_of_front h (by decide)).exists_of_comment
  obtain ⟨t, ht⟩ := text_front_isPrefix .body c r
  rw [h] at ht
  cases hu
  have hr : r = '/' :: u ++ t := (List.cons.inj ht).2.symm
  subst hr
  have hv : '/' :: u = ('/' :: (u ++ t)).takeWhile (· != '\n') := by
    simpa [front, show isGap '/' = false by decide] using h.symm
  have hsplit := List.takeWhile_append_dropWhile (p := (· != '\n')) (l := '/' :: (u ++ t))
  rw [← hv, ← List.cons_append] at hsplit
  rw [List.append_cancel_left hsplit]
  simp

end Lexer

/-- The kind and the text of a token. -/
def Token.lexeme (t : Token) : Kind × List Char := (t.kind, t.text.toList)

theorem map_lexeme_place (d : Dialect) (p : Position) (ps : List Piece) :
    ((Lexer.place d p ps).filterMap Lexer.token?).map Token.lexeme =
      ps.filterMap Lexer.lexeme? := by
  induction ps generalizing p with
  | nil => rfl
  | cons q qs ih =>
    cases q with
    | gap c =>
      rw [Lexer.place, List.filterMap_cons_none rfl, List.filterMap_cons_none rfl]
      exact ih _
    | stray c =>
      rw [Lexer.place, List.filterMap_cons_none rfl, List.filterMap_cons_none rfl]
      exact ih _
    | token k c r => simpa [Lexer.place, Lexer.token?, Lexer.lexeme?, Token.lexeme] using ih _

/-- The tokens of a lexed text are its lexemes, with their places. -/
theorem map_lexeme_tokens (d : Dialect) (p : Position) (cs : List Char) :
    (lex d p cs).tokens.map Token.lexeme = Lexer.lexemes d cs :=
  map_lexeme_place d p _

theorem map_lexeme_all (d : Dialect) (p : Position) (cs : List Char) :
    (lex d p cs).all.map Token.lexeme = Lexer.lexemes d cs ++ [(.fin, [])] := by
  rw [Lexed.all, List.map_append, map_lexeme_tokens]
  rfl

end Partitura.ManuScript
