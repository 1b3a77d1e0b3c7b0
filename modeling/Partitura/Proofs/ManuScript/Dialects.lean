import Partitura.Proofs.ManuScript.Lexemes

/-!
# The two dialects side by side

The text of a plugin file and the code of a method are lexed by different rules: a string of code
ends on its line, and a colon is a token of code only. In a text whose strings are all closed on
their lines these rules agree piece by piece, colons apart (`pieces_plugin`), so the tokens are the
same once the colons are left out. For all other texts they differ (`map_lexeme_lexPlugin_iff`),
since no token of a plugin file is ever invalid.
-/

namespace Partitura.ManuScript

variable {cs r : List Char} {k : Kind} {c : Char}

namespace Lexer

/-! ## One piece -/

/-- A string that is closed on its line is the same string where lines do not matter. -/
theorem stringRest_false_of_closed {q : Char} {w : List Char}
    (h : stringRest true q cs = (w, true)) : stringRest false q cs = (w, true) := by
  fun_induction stringRest true q cs generalizing w with
  | case1 => simp at h
  | case2 => simp at h
  | case3 e r t closed hr ih =>
    simp only [Prod.mk.injEq] at h
    obtain ⟨rfl, rfl⟩ := h
    simp [stringRest, ih hr]
  | case4 c r hne hne' hq =>
    rw [stringRest_cons (ne_backslash hne hne'), if_pos hq, ← h]
  | case5 => simp at h
  | case6 c r hne hne' hq hn t closed hr ih =>
    simp only [Prod.mk.injEq] at h
    obtain ⟨rfl, rfl⟩ := h
    rw [stringRest_cons (ne_backslash hne hne'), if_neg hq, if_neg (by simp), ih hr]

/-- A piece of code as it is read in a plugin file, where a colon is no token. -/
def inPlugin : Piece → Piece
  | .token .colon c _ => .stray c
  | p => p

theorem inPlugin_token (hk : k ≠ .colon) (c : Char) (r : List Char) :
    inPlugin (.token k c r) = .token k c r := by
  cases k
  case colon => exact absurd rfl hk
  all_goals rfl

theorem lexeme?_inPlugin (p : Piece) :
    lexeme? (inPlugin p) = (lexeme? p).filter (·.1 ≠ .colon) := by
  cases p with
  | gap c => rfl
  | stray c => rfl
  | token k c r =>
    by_cases hk : k = .colon
    · subst hk
      rfl
    · rw [inPlugin_token hk, lexeme?, Option.filter_some, if_pos (by simpa using hk)]

theorem eq_token_of_inPlugin {p : Piece} (h : inPlugin p = .token k c r) : p = .token k c r := by
  cases p with
  | gap x => exact h
  | stray x => exact h
  | token k' x v =>
    by_cases hk : k' = .colon
    · subst hk
      cases h
    · rwa [inPlugin_token hk] at h

theorem single?_plugin (c : Char) :
    single? .plugin c = if single? .body c = some .colon then none else single? .body c := by
  unfold single?
  split <;> rfl

theorem ne_colon_of_pair {d : Char} (h : pair? c d = some k) : k ≠ .colon := by
  have hall : ∀ x ∈ [('<', '=', Kind.lte), ('>', '=', .gte), ('!', '=', .neq)], x.2.2 ≠ .colon := by
    decide
  exact hall _ (pair?_cases h)

theorem mark_plugin (c : Char) (r : List Char) : mark .plugin c r = inPlugin (mark .body c r) := by
  unfold mark
  split
  · next k e t hp =>
    rw [inPlugin_token (ne_colon_of_pair (show pair? c e = some k by simpa using hp))]
  · rw [single?_plugin]
    cases hs : single? .body c with
    | none => rfl
    | some k =>
      by_cases hk : k = .colon
      · subst hk
        rfl
      · simp [hk, inPlugin_token hk]

/-- What is no unclosed string in code is the same in a plugin file, if it is no colon. -/
theorem front_plugin (h : ∀ v, front .body c r ≠ .token .invalid c v) :
    front .plugin c r = inPlugin (front .body c r) := by
  unfold front at h ⊢
  split
  · rfl
  split
  · rfl
  split
  · next hgap hslash hquote =>
    simp only [hgap, hslash, hquote] at h
    cases hs : stringRest true c r with
    | mk t closed =>
      cases closed with
      | false => exact absurd (by simp [hs]) (h t)
      | true => simp [hs, stringRest_false_of_closed hs, inPlugin_token]
  split
  · rfl
  split
  · exact (inPlugin_token (Kind.ofWord_ne rfl _) _ _).symm
  · exact mark_plugin c r

/-- A colon is a piece of one character in both dialects. -/
theorem text_inPlugin_front (c : Char) (r : List Char) :
    (inPlugin (front .body c r)).text = (front .body c r).text := by
  cases hf : front .body c r with
  | gap x => rfl
  | stray x => rfl
  | token k x v =>
    by_cases hk : k = .colon
    · subst hk
      obtain rfl := first_of_front_token hf
      have hv : x :: v = [':'] := (spelled_of_front hf (by decide)).eq_of_mark? rfl
      rw [(List.cons.inj hv).2]
      rfl
    · rw [inPlugin_token hk]

theorem Spelled.ne_invalid {w : List Char} (h : Spelled k w) : k ≠ .invalid := by
  rintro rfl
  rcases h.cases_of_plain rfl rfl (by decide) with ⟨hk, -⟩ | ⟨hk, -⟩ | ⟨hk, -⟩ <;> cases hk

/-- A string of a plugin file counts as closed where it ends, so no token is invalid. -/
theorem ne_invalid_of_front_plugin {v : List Char} (h : front .plugin c r = .token k c v) :
    k ≠ .invalid := by
  rintro rfl
  unfold front at h
  split at h
  · cases h
  split at h
  · cases h
  split at h
  · simp at h
  split at h
  · cases h
  split at h
  · exact absurd (Piece.token.inj h).1 (Kind.ofWord_ne rfl _)
  · rw [mark_plugin] at h
    exact (spelled_of_mark (eq_token_of_inPlugin h)).ne_invalid rfl

/-! ## All pieces -/

/-- A text whose strings are closed on their lines has the same pieces in both dialects, colons
apart. The pieces have the same length, so that after each of them both go on at the same place. -/
theorem pieces_plugin (h : ∀ l ∈ lexemes .body cs, l.1 ≠ .invalid) :
    pieces .plugin cs = (pieces .body cs).map inPlugin := by
  fun_induction pieces .body cs with
  | case1 => rw [pieces]; rfl
  | case2 c r ih =>
    have hfront : front .plugin c r = inPlugin (front .body c r) := by
      refine front_plugin fun v hv => ?_
      rw [lexemes_of_front_token hv] at h
      exact h _ List.mem_cons_self rfl
    have hrest : ∀ l ∈ lexemes .body ((c :: r).drop (front .body c r).text.length),
        l.1 ≠ .invalid := by
      intro l hl
      obtain ⟨q, hq, hql⟩ := List.mem_filterMap.1 hl
      exact h l
        (List.mem_filterMap.2 ⟨q, by rw [pieces_cons]; exact List.mem_cons_of_mem _ hq, hql⟩)
    rw [pieces_cons, hfront, text_inPlugin_front, ih hrest, List.map_cons]

theorem lexemes_plugin (h : ∀ l ∈ lexemes .body cs, l.1 ≠ .invalid) :
    lexemes .plugin cs = (lexemes .body cs).filter (·.1 ≠ .colon) := by
  rw [lexemes, pieces_plugin h, List.filterMap_map, lexemes, List.filter_filterMap]
  exact List.filterMap_congr fun p _ => lexeme?_inPlugin p

theorem ne_invalid_of_mem_lexemes_plugin : ∀ l ∈ lexemes .plugin cs, l.1 ≠ .invalid := by
  rintro ⟨k, w⟩ hl
  obtain ⟨c, r, v, rfl, hf⟩ := exists_front_of_mem_lexemes hl
  exact ne_invalid_of_front_plugin hf

theorem lexemes_plugin_iff :
    lexemes .plugin cs = (lexemes .body cs).filter (·.1 ≠ .colon) ↔ ∀ l ∈ lexemes .body cs,
      l.1 ≠ .invalid := by
  refine ⟨fun heq l hl hk => ?_, lexemes_plugin⟩
  have hmem : l ∈ lexemes .plugin cs := by
    rw [heq, List.mem_filter]
    exact ⟨hl, by simp [hk]⟩
  exact ne_invalid_of_mem_lexemes_plugin l hmem hk

end Lexer

/-! ## Tokens -/

theorem map_fst_map_lexeme (ts : List Token) :
    (ts.map Token.lexeme).map Prod.fst = ts.map Token.kind := by
  rw [List.map_map]
  rfl

theorem map_lexeme_filter (p : Kind → Bool) (ts : List Token) :
    (ts.filter fun t => p t.kind).map Token.lexeme =
      (ts.map Token.lexeme).filter fun l => p l.1 := by
  rw [List.filter_map]
  rfl

/-- **The dialects agree.** The tokens of a text as a plugin file and its tokens as the code of a
method, wherever that starts, have the same kinds and the same texts in the same order, the end
included and colons left out, if and only if no token of the code is invalid: a string that is not
closed on its line. -/
theorem map_lexeme_lexPlugin_iff (p : Position) (s : String) :
    (lexPlugin s).all.map Token.lexeme =
      ((lexBody p s).all.filter (·.kind ≠ .colon)).map Token.lexeme ↔
      ∀ t ∈ (lexBody p s).all, t.kind ≠ .invalid := by
  have hfin : ∀ l : Lexed, l.all.map Token.lexeme = l.tokens.map Token.lexeme ++ [(.fin, [])] :=
    fun l => by
    simp [Lexed.all, Lexed.finToken, Token.lexeme]
  have hkinds : (∀ t ∈ (lexBody p s).all, t.kind ≠ .invalid) ↔ ∀ l ∈ Lexer.lexemes .body s.toList,
      l.1 ≠ .invalid := by
    rw [← map_lexeme_tokens .body p, List.forall_mem_map, Lexed.all, List.forall_mem_append]
    simp [Token.lexeme, lexBody, Lexed.finToken]
  rw [hkinds, ← Lexer.lexemes_plugin_iff, map_lexeme_filter (fun k => k ≠ .colon), hfin, hfin,
    List.filter_append, lexPlugin, lexBody, map_lexeme_tokens, map_lexeme_tokens]
  exact List.append_left_inj _

end Partitura.ManuScript
