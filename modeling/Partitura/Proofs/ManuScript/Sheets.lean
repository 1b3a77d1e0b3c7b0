import Partitura.ManuScript.Plugin
import Partitura.Proofs.ManuScript.Lexemes
import Partitura.Proofs.Text.Escapes

/-!
# Plugin files from their entries

The plain form of a plugin file: a brace, one entry after another, a brace. Whatever names and texts
the entries have, the file is read as a plugin with these members (`parse_sheet`).
-/

namespace Partitura.ManuScript

open Text Lexer

/-- A name that is no reserved word. -/
def IsIdentifier : List Char → Prop
  | [] => False
  | c :: r =>
    (isLetter c = true ∨ c = '_') ∧ r.all isWordChar = true ∧
      Kind.ofWord (String.ofList (c :: r)) = .identifier

instance : (name : List Char) → Decidable (IsIdentifier name)
  | [] => inferInstanceAs (Decidable False)
  | c :: r => inferInstanceAs (Decidable ((isLetter c = true ∨ c = '_') ∧ r.all isWordChar = true ∧
      Kind.ofWord (String.ofList (c :: r)) = .identifier))

theorem IsIdentifier.ne_nil {name : List Char} (h : IsIdentifier name) : name ≠ [] := by
  rintro rfl
  exact h

theorem IsIdentifier.isWordChar {name : List Char} (h : IsIdentifier name) :
    ∀ c ∈ name, isWordChar c = true := by
  cases name with
  | nil => simp
  | cons a r =>
    obtain ⟨ha, hr, -⟩ := h
    intro c hc
    rcases List.mem_cons.1 hc with rfl | hc
    · rcases ha with ha | rfl
      · exact isWordChar_of_isLetter ha
      · decide
    · exact List.all_eq_true.1 hr c hc

/-- A member of a plugin file as it is written: its name and its text. -/
structure Entry where
  name : List Char
  content : List Char
deriving DecidableEq, Repr

namespace Entry

/-- An entry with a name that may be used and a text in which quotes are escaped. -/
structure Valid (e : Entry) : Prop where
  name : IsIdentifier e.name
  content : Escaped e.content

/-- The lines of an entry. -/
def text (indent : List Char) (e : Entry) : List Char :=
  indent ++ e.name ++ [' ', '"'] ++ e.content ++ ['"']

/-- What an entry stands for. -/
def value (e : Entry) : MemberValue :=
  if e.content.head? == some '(' then .method (Plugin.paramsOf e.content)
  else .variable (String.ofList e.content)

/-- The name and the value of an entry. -/
def outline (e : Entry) : String × MemberValue := (String.ofList e.name, e.value)

end Entry

/-- The name and the value of a member. -/
def Member.outline (m : Member) : String × MemberValue := (m.name, m.value)

/-- A plugin file with these entries, each one behind the same indentation. -/
def sheet (indent : List Char) (es : List Entry) : List Char :=
  unlines (['\x7b'] :: es.map (·.text indent) ++ [['\x7d']])

/-! ## Tokens -/

variable {indent : List Char} {es : List Entry}

/-- A text in quotes is read up to its own quote. -/
theorem stringRest_of_scan {w : List Char} (h : scan false w = some false) (rest : List Char) :
    stringRest false '"' (w ++ '"' :: rest) = (w ++ ['"'], true) := by
  fun_induction stringRest false '"' w with
  | case1 => simp [stringRest]
  | case2 => cases h
  | case3 e r t closed hr ih =>
    simp [stringRest, ih h]
  | case4 c r hne hne' hq => simp [scan, eq_of_beq hq] at h
  | case5 c r hne hne' hq hn => cases hn
  | case6 c r hne hne' hq hn t closed hr ih =>
    have hc := ne_backslash hne hne'
    have hq' : (c == '"') = false := by simpa using hq
    have hw : scan false r = some false := by simpa [scan, hc, hq'] using h
    rw [List.cons_append, stringRest_cons hc, if_neg hq, ih hw]
    rfl

/-- The tokens of an entry are its name and its text in quotes. -/
theorem lexemes_entry (hindent : AllBlank indent) {e : Entry} (he : e.Valid) (rest : List Char) :
    lexemes .plugin (e.text indent ++ rest) =
      (.identifier, e.name) :: (.string, '"' :: e.content ++ ['"']) :: lexemes .plugin rest := by
  obtain ⟨name, content⟩ := e
  obtain ⟨hname, hcontent⟩ := he
  cases name with
  | nil => exact absurd hname id
  | cons c r =>
    obtain ⟨hc, hr, hkind⟩ := hname
    have hsplit : Entry.text indent ⟨c :: r, content⟩ ++ rest =
        indent ++ (c :: r ++ ([' '] ++ ('"' :: (content ++ ['"']) ++ rest))) := by simp [Entry.text]
    have hword : front .plugin c (r ++ ([' '] ++ ('"' :: (content ++ ['"']) ++ rest))) =
        .token .identifier c r := by
      rw [front_of_word hc (List.all_eq_true.1 hr) (by simp; decide), hkind]
    have hstring :
        front .plugin '"' (content ++ ['"'] ++ rest) = .token .string '"' (content ++ ['"']) := by
      have hs := stringRest_of_scan (escaped_iff.1 hcontent) rest
      simp [front, hs, show isGap '"' = false by decide]
    rw [hsplit, lexemes_allBlank_append hindent, lexemes_append_of_front hword,
      lexemes_allBlank_append (by decide), lexemes_append_of_front hstring]
    rfl

theorem lexemes_brace {c : Char} {k : Kind}
    (h : (c, k) = ('\x7b', .lbrace) ∨ (c, k) = ('\x7d', .rbrace)) (d : Dialect) (rest : List Char) :
    lexemes d (c :: rest) = (k, [c]) :: lexemes d rest := by
  have hf : front d c ([] ++ rest) = .token k c [] := by
    rcases h with h | h
    all_goals
      cases h
      rw [front_of_mark (by decide)]
      cases rest <;> simp [mark, pair?, single?]
  exact lexemes_append_of_front hf

/-- The tokens of the entries of a plugin file. -/
def entryLexemes (es : List Entry) : List (Kind × List Char) :=
  es.flatMap fun e => [(.identifier, e.name), (.string, '"' :: e.content ++ ['"'])]

theorem lexemes_entries (hindent : AllBlank indent) (hes : ∀ e ∈ es, e.Valid) (rest : List Char) :
    lexemes .plugin (unlines (es.map (·.text indent) ++ [['\x7d']]) ++ rest) =
      entryLexemes es ++ (.rbrace, ['\x7d']) :: lexemes .plugin rest := by
  induction es with
  | nil => exact lexemes_brace (.inr rfl) .plugin rest
  | cons e es ih =>
    rw [List.map_cons, List.cons_append, unlines_cons (by simp), List.append_assoc,
      lexemes_entry hindent (hes e (by simp)), List.cons_append (a := '\n'),
      lexemes_gap .plugin (by decide), ih fun e he => hes e (by simp [he])]
    rfl

theorem lexemes_sheet (hindent : AllBlank indent) (hes : ∀ e ∈ es, e.Valid) (rest : List Char) :
    lexemes .plugin (sheet indent es ++ rest) =
      (.lbrace, ['\x7b']) :: (entryLexemes es ++ (.rbrace, ['\x7d']) :: lexemes .plugin rest) := by
  rw [sheet, List.cons_append, unlines_cons (by simp), List.singleton_append, List.cons_append,
    lexemes_brace (.inl rfl), List.cons_append, lexemes_gap .plugin (by decide),
    lexemes_entries hindent hes]

/-! ## Members -/

theorem valueOf_quoted (e : Entry) : Plugin.valueOf ('"' :: e.content ++ ['"']) = e.value := by
  rw [Plugin.valueOf, Entry.value]
  simp

theorem kind_text_of_lexeme {t : Token} {k : Kind} {w : List Char} (h : t.lexeme = (k, w)) :
    t.kind = k ∧ t.text = String.ofList w := by
  cases h
  exact ⟨rfl, (String.ofList_toList ..).symm⟩

/-- The members that are read from the tokens of entries, up to a closing brace. -/
theorem membersOf_entries {ts : List Token} {r : List (Kind × List Char)}
    (h : ts.map Token.lexeme = entryLexemes es ++ (.rbrace, ['\x7d']) :: r) :
    ∃ ms t rest, Plugin.membersOf ts = (ms, t :: rest) ∧ t.kind = .rbrace ∧
      ms.map Member.outline = es.map Entry.outline := by
  induction es generalizing ts with
  | nil =>
    obtain ⟨t, rest, rfl, ht, -⟩ := List.map_eq_cons_iff.1 h
    have hk := (kind_text_of_lexeme ht).1
    refine ⟨[], t, rest, ?_, hk, rfl⟩
    unfold Plugin.membersOf
    simp [hk]
  | cons e es ih =>
    obtain ⟨t, ts, rfl, ht, h⟩ := List.map_eq_cons_iff.1 h
    obtain ⟨s, ts, rfl, hs, h⟩ := List.map_eq_cons_iff.1 h
    obtain ⟨htk, htt⟩ := kind_text_of_lexeme ht
    obtain ⟨hsk, hst⟩ := kind_text_of_lexeme hs
    obtain ⟨ms, c, rest, hms, hc, hout⟩ := ih h
    refine ⟨⟨t.text, t.pos, Plugin.valueOf s.text.toList⟩ :: ms, c, rest, ?_, hc, ?_⟩
    · unfold Plugin.membersOf
      simp [htk, hsk, hms]
    · rw [List.map_cons, List.map_cons, hout, Member.outline, Entry.outline, htt, hst,
        String.toList_ofList, valueOf_quoted]

/-- A plugin file is read as a plugin with one member for each entry, in their order. -/
theorem parse_sheet (hindent : AllBlank indent) (hes : ∀ e ∈ es, e.Valid) (rest : List Char) :
    ∃ p, Plugin.parse (String.ofList (sheet indent es ++ rest)) = .ok p ∧
      p.members.map Member.outline = es.map Entry.outline := by
  have hlex : (lex .plugin ⟨1, 1⟩ (sheet indent es ++ rest)).all.map Token.lexeme =
      (.lbrace, ['\x7b']) ::
        (entryLexemes es ++ (.rbrace, ['\x7d']) :: (lexemes .plugin rest ++ [(.fin, [])])) := by
    rw [Lexed.all, List.map_append, map_lexeme_tokens, lexemes_sheet hindent hes]
    simp [Lexed.finToken, Token.lexeme]
  obtain ⟨t, ts, hall, ht, hts⟩ := List.map_eq_cons_iff.1 hlex
  obtain ⟨ms, c, rest', hms, hc, hout⟩ := membersOf_entries hts
  refine ⟨⟨ms⟩, ?_, hout⟩
  have hparse :
      Plugin.parse (String.ofList (sheet indent es ++ rest)) = Plugin.ofTokens (t :: ts) := by
    obtain ⟨x, hx⟩ : ∃ x, sheet indent es ++ rest = '\x7b' :: x :=
      ⟨_, by rw [sheet, List.cons_append, unlines_cons (by simp)]; rfl⟩
    rw [Plugin.parse, String.toList_ofList, ← hall, hx]
    rfl
  rw [hparse, Plugin.ofTokens, if_pos (kind_text_of_lexeme ht).1, hms]
  simp [hc]

end Partitura.ManuScript
