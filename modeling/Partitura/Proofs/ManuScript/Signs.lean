import Partitura.Proofs.ManuScript.Lexemes
import Partitura.Proofs.ManuScript.Places

/-!
# Attached signs

A minus sign right before a digit is part of the number, whatever stands in front of it. So behind
an operand it does not subtract: `a -1` is a name and a number with no operator between them. This
module says what becomes of such a sign. It counts as a blank: the code gets the complaints, in the
same order and with the same words, that it gets with a blank in the place of the sign. Where a
space stands behind the sign it is an operator (`checkBody_attached_sign`), and that can make all
the difference (`checkBody_attached_sign_differs`).

The lexer sees the difference between a sign and a blank only in the number itself
(`pieces_delimited`). The reader passes over a number without reading it out, unless it may be a
condition or a divisor, and behind an operand it is neither (`faithful_behind_operand`).
-/

namespace Partitura.ManuScript

variable {c y x : Char} {r s t : List Char} {ts us : List Token} {a : Token}

namespace Lexer

/-! ## A text with another character in it -/

/-- A string that is not closed ends with the text or before a line feed, and then what follows the
line feed does not matter. -/
theorem stringRest_unclosed {q : Char} {cs w : List Char} (h : stringRest true q cs = (w, false)) :
    cs = w ∨ ∃ t, cs = w ++ '\n' :: t ∧ ∀ t', stringRest true q (w ++ '\n' :: t') = (w, false) := by
  fun_induction stringRest true q cs generalizing w with
  | case1 => exact .inl (Prod.mk.inj h).1
  | case2 => exact .inl (Prod.mk.inj h).1
  | case3 e r t closed hr ih =>
    simp only [Prod.mk.injEq] at h
    obtain ⟨rfl, rfl⟩ := h
    rcases ih hr with rfl | ⟨u, rfl, hu⟩
    · exact .inl rfl
    · exact .inr ⟨u, rfl, fun t' => by simp [stringRest, hu t']⟩
  | case4 => simp at h
  | case5 c r hne hne' hq hn =>
    simp only [Prod.mk.injEq, and_true] at h
    subst h
    obtain rfl : c = '\n' := by simpa using hn
    refine .inr ⟨r, rfl, fun t' => ?_⟩
    rw [List.nil_append, stringRest_cons (by decide), if_neg hq, if_pos hn]
  | case6 c r hne hne' hq hn t closed hr ih =>
    simp only [Prod.mk.injEq] at h
    obtain ⟨rfl, rfl⟩ := h
    rcases ih hr with rfl | ⟨u, rfl, hu⟩
    · exact .inl rfl
    · refine .inr ⟨u, rfl, fun t' => ?_⟩
      rw [List.cons_append, stringRest_cons (ne_backslash hne hne'), if_neg hq, if_neg hn, hu t']

/-- What starts with a quote is a string, closed or not. -/
theorem front_of_quote (hc : c = '\'' ∨ c = '"') (r : List Char) :
    front .body c r =
      .token (if (stringRest true c r).2 then .string else .invalid) c (stringRest true c r).1 := by
  rcases hc with rfl | rfl
  · simp [front, show isGap '\'' = false by decide]
  · simp [front, show isGap '"' = false by decide]

theorem stringRest_of_front_invalid {v : List Char} (h : front .body c r = .token .invalid c v) :
    (c = '\'' ∨ c = '"') ∧ stringRest true c r = (v, false) := by
  have hquote : c = '\'' ∨ c = '"' := by
    rcases spelled_or_unclosed h with hs | ⟨-, hq⟩
    · rcases hs.cases_of_plain rfl rfl (by decide) with ⟨hk, -⟩ | ⟨hk, -⟩ | ⟨hk, -⟩ <;> cases hk
    · exact hq
  refine ⟨hquote, ?_⟩
  rw [front_of_quote hquote] at h
  cases hs : stringRest true c r with
  | mk t closed =>
    cases closed with
    | true => simp [hs] at h
    | false => simpa [hs] using h

theorem mark_eq_stray_iff :
    mark .body c r = .stray y ↔ y = c ∧ single? .body c = none ∧ r.head?.bind (pair? c) = none := by
  cases hp : r.head?.bind (pair? c) with
  | some k =>
    cases r with
    | nil => cases hp
    | cons e r => simp [mark_of_pair (show pair? c e = some k from hp)]
  | none =>
    cases hs : single? .body c with
    | some k => simp [mark_of_not_pair hs hp]
    | none =>
      unfold mark
      rw [hp, hs]
      simp [eq_comm]

/-- Whether a character starts no token depends on what follows it only if it is the first one of an
operator. -/
theorem front_eq_stray_iff :
    front .body c r = .stray y ↔
      (isGap c = false ∧ (c == '\'' || c == '"') = false ∧ Text.isDigit c = false ∧
        (Text.isLetter c || c == '_') = false) ∧ mark .body c r = .stray y := by
  constructor
  · intro h
    rw [front] at h
    split at h
    · cases h
    next hgap =>
    split at h
    · cases h
    split at h
    · cases h
    next hquote =>
    split at h
    · cases h
    next hdigit =>
    split at h
    · cases h
    next hletter =>
    simp only [Bool.or_eq_true, not_or, Bool.not_eq_true] at hdigit
    exact ⟨⟨by simpa using hgap, by simpa using hquote, hdigit.1, by simpa using hletter⟩, h⟩
  · rintro ⟨⟨hgap, hquote, hdigit, hletter⟩, h⟩
    obtain ⟨-, hsingle, -⟩ := mark_eq_stray_iff.1 h
    have hslash : c ≠ '/' := by rintro rfl; cases hsingle
    have hminus : c ≠ '-' := by rintro rfl; cases hsingle
    simpa [front, hgap, hslash, hquote, hdigit, hminus, hletter] using h

/-- A character that ends every token but a comment. -/
def Delimits (y : Char) : Prop := ∀ k : Kind, k ≠ .comment → mayFollow k y = true

theorem delimits_space : Delimits ' ' := fun _ => mayFollow_space

theorem delimits_minus : Delimits '-' := by
  intro k hk
  cases k
  case comment => exact absurd rfl hk
  all_goals decide

theorem Delimits.pair? (hy : Delimits y) (c : Char) : pair? c y = none := by
  have hne : y ≠ '=' := by
    rintro rfl
    exact absurd (hy .lt (by decide)) (by decide)
  cases h : Lexer.pair? c y with
  | none => rfl
  | some k =>
    have hcases := pair?_cases h
    simp only [List.mem_cons, Prod.mk.injEq, hne, false_and, and_false, List.not_mem_nil, or_false]
      at hcases

/-- A token ends before such a character as it ends before another one, a line feed apart, that is
no part of it. -/
theorem Delimits.ends {k : Kind} (hy : Delimits y) (hx : x ≠ '\n') {u : List Char}
    (h : Ends k (u ++ x :: r)) (r' : List Char) : Ends k (u ++ y :: r') := by
  cases u with
  | nil =>
    have hfollow : mayFollow k x = true := ends_cons.1 h
    refine ends_cons.2 (hy k ?_)
    rintro rfl
    exact hx (by simpa [mayFollow, Kind.isWord] using hfollow)
  | cons z u => exact ends_cons.2 (ends_cons.1 h)

/-- A piece that ends before a character, a line feed apart, does not change when another text
follows that delimits it. -/
theorem front_delimited (hx : x ≠ '\n') (hy : Delimits y) {u : List Char}
    (hfit : (front .body c (u ++ x :: r)).text.length ≤ u.length + 1) (r' : List Char) :
    front .body c (u ++ y :: r') = front .body c (u ++ x :: r) := by
  cases hp : front .body c (u ++ x :: r) with
  | gap z =>
    obtain ⟨rfl, hgap⟩ := first_of_front_gap hp
    rw [front, if_pos hgap]
  | stray z =>
    obtain ⟨hc, hmark⟩ := front_eq_stray_iff.1 hp
    obtain ⟨hz, hsingle, hpair⟩ := mark_eq_stray_iff.1 hmark
    refine front_eq_stray_iff.2 ⟨hc, mark_eq_stray_iff.2 ⟨hz, hsingle, ?_⟩⟩
    cases u with
    | nil => exact hy.pair? c
    | cons z u => exact hpair
  | token k z v =>
    obtain rfl := first_of_front_token hp
    -- the characters of the token are the first ones of `u`
    obtain ⟨u', rfl⟩ : v <+: u := by
      have hprefix := text_front_isPrefix .body z (u ++ x :: r)
      rw [hp, Piece.text, List.cons_prefix_cons] at hprefix
      rw [hp, Piece.text, List.length_cons] at hfit
      exact List.prefix_of_prefix_length_le hprefix.2 (List.prefix_append u _) (by omega)
    rw [List.append_assoc]
    by_cases hk : k = .invalid
    · subst hk
      rw [List.append_assoc] at hp
      obtain ⟨hquote, hs⟩ := stringRest_of_front_invalid hp
      -- the string ends before a line feed in `u'`
      have hs' : stringRest true z (v ++ (u' ++ y :: r')) = (v, false) := by
        rcases stringRest_unclosed hs with htext | ⟨t, htext, ht⟩
        · simp at htext
        · rw [List.append_cancel_left_eq] at htext
          cases u' with
          | nil => exact absurd (List.cons.inj htext).1 hx
          | cons b u' =>
            obtain rfl : b = '\n' := (List.cons.inj htext).1
            exact ht _
      rw [front_of_quote hquote, hs']
      rfl
    · have hends := ends_of_front hp hk
      rw [List.append_assoc, List.drop_left] at hends
      exact front_of_spelled (spelled_of_front hp hk) (hy.ends hx hends r')

/-- When another text follows that delimits what stands before it, the pieces before it are the
same. -/
theorem pieces_delimited (hx : x ≠ '\n') (hy : Delimits y) {ps qs : List Piece}
    (h : pieces .body (ps.flatMap Piece.text ++ x :: r) = ps ++ qs) (r' : List Char) :
    qs = pieces .body (x :: r) ∧
      pieces .body (ps.flatMap Piece.text ++ y :: r') = ps ++ pieces .body (y :: r') := by
  induction ps with
  | nil => exact ⟨h.symm, rfl⟩
  | cons q ps ih =>
    obtain ⟨c, v, hq⟩ : ∃ c v, q.text = c :: v := List.exists_cons_of_length_pos q.length_text_pos
    rw [List.flatMap_cons, hq, List.append_assoc, List.cons_append, pieces_cons, List.cons_append,
      List.cons.injEq] at h
    obtain ⟨hfront, hrest⟩ := h
    rw [hfront, hq, ← List.cons_append, List.drop_left] at hrest
    obtain ⟨hqs, hps⟩ := ih hrest
    have hsame : front .body c (v ++ (ps.flatMap Piece.text ++ y :: r')) = q := by
      rw [← List.append_assoc, front_delimited hx hy ?_ r', List.append_assoc, hfront]
      rw [List.append_assoc, hfront, hq]
      simp
    refine ⟨hqs, ?_⟩
    rw [List.flatMap_cons, hq, List.append_assoc, pieces_append hq hsame, hps, List.cons_append]

/-- The pieces of a number with its sign, and those of the number behind a blank. -/
theorem pieces_number {w : List Char} {qs : List Piece}
    (h : pieces .body ('-' :: r) = .token .number '-' w :: qs) :
    ∃ c v, w = c :: v ∧ pieces .body (' ' :: r) = .gap ' ' :: .token .number c v :: qs := by
  rw [pieces_cons, List.cons.injEq] at h
  obtain ⟨hfront, hqs⟩ := h
  have hends := ends_of_front hfront (by decide)
  obtain ⟨rest, rfl⟩ : w <+: r := by
    have hprefix := text_front_isPrefix .body '-' r
    rw [hfront, Piece.text, List.cons_prefix_cons] at hprefix
    exact hprefix.2
  rw [List.drop_left] at hends
  rw [hfront, Piece.text, ← List.cons_append, List.drop_left] at hqs
  obtain ⟨c, v, hcv, hdigit, hv⟩ := (spelled_of_front hfront (by decide)).exists_of_number
  obtain ⟨rfl, rfl⟩ := List.cons.inj hcv
  replace hdigit := (hdigit.resolve_left (by decide)).2
  cases w with
  | nil => cases hdigit
  | cons c v =>
    have hnumber : front .body c (v ++ rest) = .token .number c v :=
      front_of_number (.inl hdigit) (fun x hx => hv x (List.mem_cons_of_mem c hx)) hends
    have hgap : front .body ' ' ([] ++ (c :: v ++ rest)) = .gap ' ' := rfl
    refine ⟨c, v, rfl, ?_⟩
    rw [show ' ' :: (c :: v ++ rest) = [' '] ++ (c :: v ++ rest) from rfl, pieces_append rfl hgap,
      pieces_append rfl hnumber, hqs]

theorem pieces_minus (r : List Char) :
    pieces .body ('-' :: ' ' :: r) = .token .minus '-' [] :: pieces .body (' ' :: r) := by
  rw [pieces_cons]
  rfl

theorem place_append (d : Dialect) (p : Position) (ps qs : List Piece) :
    place d p (ps ++ qs) = place d p ps ++ place d (ps.foldl (afterPiece d) p) qs := by
  induction ps generalizing p with
  | nil => rfl
  | cons q ps ih => rw [List.cons_append, place, ih, place, List.cons_append, List.foldl_cons]

end Lexer

/-! ## A number behind an operand -/

namespace Reader

open Grammar

/-- The kinds of tokens that an operand can end with. -/
def operandEnds : List Kind := [.identifier, .number, .string, .rparen, .rbracket]

theorem mem_of_head?_skip {u : Token} (ha : a ∈ ts) (hkind : a.kind ≠ .comment)
    (hu : u ∈ (skip (ts ++ us)).head?) : u ∈ ts := by
  have hne : skip ts ≠ [] := by
    intro hnil
    have hall := List.dropWhile_eq_nil_iff.1 hnil a ha
    exact hkind (by simpa using hall)
  obtain ⟨z, r, hz⟩ := List.exists_cons_of_ne_nil hne
  have hskip : skip (ts ++ us) = z :: (r ++ us) := by
    rw [skip, List.dropWhile_append, show ts.dropWhile (·.kind == .comment) = z :: r from hz]
    rfl
  rw [hskip, List.head?_cons, Option.mem_some_iff] at hu
  subst hu
  exact (skip_suffix ts).subset (hz ▸ List.mem_cons_self)

/-- A number right behind an operand is not read out. -/
theorem faithful_behind_operand {ν : Token → String} (hlast : ts.getLast? = some a)
    (ha : a.kind ∈ operandEnds) (hts : ∀ u ∈ ts, ν u = u.text) (hus : ∀ u ∈ us, ν u = u.text)
    (t : Token) : Faithful ν (ts ++ t :: us) := by
  have hkinds : ∀ k ∈ operandEnds, k ∉ .lparen :: operators 4 ∧ k ≠ .comment := by decide
  obtain ⟨hopen, hcomment⟩ := hkinds a.kind ha
  induction ts with
  | nil => cases hlast
  | cons x ts ih =>
    cases ts with
    | nil =>
      obtain rfl : x = a := by simpa using hlast
      refine ⟨fun hx => absurd hx hopen, fun _ u hu _ => ?_,
        faithful_of_forall fun u hu _ => hus u hu⟩
      exact hus u ((skip_suffix us).subset (List.mem_of_mem_head? hu))
    | cons y ts =>
      -- the tokens from `y` on hold one that is no comment, so none behind them is the first one
      -- that counts
      rw [List.getLast?_cons_cons] at hlast
      have hmem : a ∈ y :: ts := List.mem_of_getLast? hlast
      refine ⟨fun _ u hu _ => ?_, ih hlast fun u hu => hts u (List.mem_cons_of_mem x hu)⟩
      exact hts u (List.mem_cons_of_mem x (mem_of_head?_skip hmem hcomment hu))

end Reader

theorem Token.retold_self {σ : Position → Position} {ν : Token → String} {t : Token}
    (hσ : σ t.pos = t.pos) (hν : ν t = t.text) : t.retold σ ν = t := by
  unfold Token.retold Token.move
  rw [hσ, hν, ite_self]

theorem ne_pos_of_nodup {t : Token} {fin : Position}
    (h : ((ts ++ t :: us).map Token.pos ++ [fin]).Nodup) :
    (∀ u ∈ ts ++ us, u.pos ≠ t.pos) ∧ fin ≠ t.pos := by
  have hperm :
      ((ts ++ t :: us).map Token.pos ++ [fin]).Perm
        (t.pos :: ((ts ++ us).map Token.pos ++ [fin])) :=
    (List.perm_middle.map Token.pos).append_right [fin]
  have hnew := (List.nodup_cons.1 (hperm.nodup h)).1
  refine ⟨fun u hu heq => hnew ?_, fun heq => hnew ?_⟩
  · exact heq ▸ List.mem_append_left [fin] (List.mem_map_of_mem hu)
  · exact heq ▸ List.mem_append_right _ List.mem_cons_self

/-- What is said about tokens does not depend on the words and the place of a number right behind an
operand. -/
theorem checkTokens_number (hlast : ts.getLast? = some a)
    (ha : a.kind ∈ Reader.operandEnds) {x x' : String} {q q' fin : Position}
    (hq : ((ts ++ ⟨.number, x, q⟩ :: us).map Token.pos ++ [fin]).Nodup)
    (hq' : ((ts ++ ⟨.number, x', q'⟩ :: us).map Token.pos ++ [fin]).Nodup) (env : Surroundings) :
    (checkTokens env fin (ts ++ ⟨.number, x, q⟩ :: us)).map (fun d => (d.code, d.message)) =
      (checkTokens env fin (ts ++ ⟨.number, x', q'⟩ :: us)).map (fun d => (d.code, d.message)) := by
  -- the two places are swapped, and the number at `q` is told as `x'`
  let σ : Equiv.Perm Position := Equiv.swap q q'
  let ν : Token → String := fun t => if t.pos = q then x' else t.text
  obtain ⟨hne, hfin⟩ := ne_pos_of_nodup hq
  obtain ⟨hne', hfin'⟩ := ne_pos_of_nodup hq'
  have hν : ∀ u ∈ ts ++ us, ν u = u.text := fun u hu => if_neg (hne u hu)
  have hself : ∀ u ∈ ts ++ us, u.retold σ ν = u := fun u hu =>
    Token.retold_self (Equiv.swap_apply_of_ne_of_ne (hne u hu) (hne' u hu)) (hν u hu)
  have htold :
      (ts ++ ⟨.number, x, q⟩ :: us).map (Token.retold σ ν) = ts ++ ⟨.number, x', q'⟩ :: us := by
    have hts : ts.map (Token.retold σ ν) = ts :=
      (List.map_congr_left fun u hu => hself u (List.mem_append_left us hu)).trans (List.map_id ts)
    have hus : us.map (Token.retold σ ν) = us :=
      (List.map_congr_left fun u hu => hself u (List.mem_append_right ts hu)).trans (List.map_id us)
    have hnumber : Token.retold σ ν ⟨.number, x, q⟩ = ⟨.number, x', q'⟩ := by
      rw [Token.retold, if_pos (.inr rfl), Token.mk.injEq]
      exact ⟨rfl, if_pos rfl, Equiv.swap_apply_left q q'⟩
    rw [List.map_append, List.map_cons, hts, hus, hnumber]
  have hfaithful : Reader.Faithful ν (ts ++ ⟨.number, x, q⟩ :: us) :=
    Reader.faithful_behind_operand hlast ha (fun u hu => hν u (List.mem_append_left us hu))
      (fun u hu => hν u (List.mem_append_right ts hu)) _
  have hmoved := checkTokens_retold σ.injective env fin hfaithful
  rw [htold, show σ fin = fin from Equiv.swap_apply_of_ne_of_ne hfin hfin'] at hmoved
  rw [hmoved, List.map_map]
  rfl

/-! ## Attached signs -/

/-- A minus sign that the lexer reads as part of a number right behind an operand, between two
stretches of text. -/
def Attached (s t : List Char) : Prop :=
  ∃ ps w qs, Lexer.pieces .body (s ++ '-' :: t) = ps ++ .token .number '-' w :: qs ∧
    ps.flatMap Piece.text = s ∧ ∃ l ∈ (ps.filterMap Lexer.lexeme?).getLast?,
      l.1 ∈ Reader.operandEnds

/-- The pieces around an attached sign: as they are, with a blank in the place of the sign, and with
a space behind it. -/
theorem Attached.pieces_eq (h : Attached s t) :
    ∃ ps c v qs, (∃ l ∈ (ps.filterMap Lexer.lexeme?).getLast?, l.1 ∈ Reader.operandEnds) ∧
      ps.flatMap Piece.text = s ∧
      Lexer.pieces .body (s ++ '-' :: t) = ps ++ .token .number '-' (c :: v) :: qs ∧
      Lexer.pieces .body (s ++ ' ' :: t) = ps ++ .gap ' ' :: .token .number c v :: qs ∧
      Lexer.pieces .body (s ++ '-' :: ' ' :: t) =
        ps ++ .token .minus '-' [] :: .gap ' ' :: .token .number c v :: qs := by
  obtain ⟨ps, w, qs, hpieces, rfl, hlast⟩ := h
  obtain ⟨hqs, hblank⟩ := Lexer.pieces_delimited (by decide) Lexer.delimits_space hpieces t
  obtain ⟨-, hspaced⟩ := Lexer.pieces_delimited (by decide) Lexer.delimits_minus hpieces (' ' :: t)
  obtain ⟨c, v, rfl, hnumber⟩ := Lexer.pieces_number hqs.symm
  rw [hnumber] at hblank
  rw [Lexer.pieces_minus, hnumber] at hspaced
  exact ⟨ps, c, v, qs, hlast, rfl, hpieces, hblank, hspaced⟩

/-- With a blank in the place of an attached sign, a text has the same tokens but for the number. -/
theorem Attached.lex_eq (h : Attached s t) (p : Position) :
    ∃ ts us x x' q q', (∃ a, ts.getLast? = some a ∧ a.kind ∈ Reader.operandEnds) ∧
      (lex .body p (s ++ '-' :: t)).tokens = ts ++ ⟨.number, x, q⟩ :: us ∧
      lex .body p (s ++ ' ' :: t) =
        ⟨ts ++ ⟨.number, x', q'⟩ :: us, (lex .body p (s ++ '-' :: t)).fin,
          (lex .body p (s ++ '-' :: t)).issues⟩ := by
  obtain ⟨ps, c, v, qs, ⟨l, hl, hkind⟩, -, hpieces, hblank, -⟩ := h.pieces_eq
  rw [← map_lexeme_place .body p, List.getLast?_map, Option.mem_def, Option.map_eq_some_iff] at hl
  obtain ⟨a, ha, rfl⟩ := hl
  -- the number starts at `q`, or one column later
  let q := ps.foldl (Lexer.afterPiece .body) p
  refine ⟨(Lexer.place .body p ps).filterMap Lexer.token?,
    (Lexer.place .body (q.after ('-' :: c :: v)) qs).filterMap Lexer.token?,
    String.ofList ('-' :: c :: v), String.ofList (c :: v), q, q.after [' '], ⟨a, ha, hkind⟩, ?_, ?_⟩
  · simp only [lex, hpieces, Lexer.place_append, List.filterMap_append]
    rfl
  · simp only [lex, hpieces, hblank, Lexer.place_append, List.filterMap_append, List.foldl_append]
    rfl

/-- What is said about the code does not change when an attached sign is a blank. -/
theorem Attached.checkBody_eq (h : Attached s t) (env : Surroundings) (p : Position) :
    (checkBody env p (String.ofList (s ++ '-' :: t))).map (fun d => (d.code, d.message)) =
      (checkBody env p (String.ofList (s ++ ' ' :: t))).map (fun d => (d.code, d.message)) := by
  obtain ⟨ts, us, x, x', q, q', ⟨a, hlast, ha⟩, htokens, hblank⟩ := h.lex_eq p
  have hplaces := nodup_places .body p (s ++ '-' :: t)
  have hplaces' := nodup_places .body p (s ++ ' ' :: t)
  rw [htokens] at hplaces
  rw [hblank] at hplaces'
  simp only [checkBody, lexBody, String.toList_ofList]
  rw [hblank, htokens, List.map_append, List.map_append,
    checkTokens_number hlast ha hplaces hplaces' env]

/-- The faults of pieces of text are the same wherever the text stands. -/
theorem told_issues_place (p p' : Position) (ps : List Piece) :
    ((Lexer.place .body p ps).filterMap Lexer.issue?).map (fun d => (d.code, d.message)) =
      ((Lexer.place .body p' ps).filterMap Lexer.issue?).map (fun d => (d.code, d.message)) := by
  induction ps generalizing p p' with
  | nil => rfl
  | cons q ps ih =>
    have hrest := ih (Lexer.afterPiece .body p q) (Lexer.afterPiece .body p' q)
    cases q with
    | gap c => exact hrest
    | stray c => exact congrArg (_ :: ·) hrest
    | token k c r =>
      cases k
      case invalid => exact congrArg (_ :: ·) hrest
      all_goals exact hrest

/-- With a space behind an attached sign, what is said about the code is what is said about its
tokens with the number cut into the sign, which is an operator, and the digits. -/
theorem Attached.checkBody_spaced (h : Attached s t) (env : Surroundings) (p : Position) :
    ∃ ts w us, (lex .body p (s ++ '-' :: t)).tokens =
        ts ++ ⟨.number, String.ofList ('-' :: w), p.after s⟩ :: us ∧
      (checkBody env p (String.ofList (s ++ '-' :: ' ' :: t))).map (fun d => (d.code, d.message)) =
        ((lex .body p (s ++ '-' :: t)).issues ++ checkTokens env (lex .body p (s ++ '-' :: t)).fin
          (ts ++ ⟨.minus, "-", p.after s⟩ :: ⟨.number, String.ofList w, (p.after s).after ['-']⟩ ::
            us)).map (fun d => (d.code, d.message)) := by
  obtain ⟨ps, c, v, qs, -, hs, hpieces, -, hspaced⟩ := h.pieces_eq
  have hq : ps.foldl (Lexer.afterPiece .body) p = p.after s := by rw [foldl_afterPiece, hs]
  -- the pieces of the text as it stands, but with the sign apart
  let cut := ps ++ .token .minus '-' [] :: .token .number c v :: qs
  have hplaces : (((Lexer.place .body p cut).filterMap Lexer.token?).map Token.pos ++
      [cut.foldl (Lexer.afterPiece .body) p]).Nodup :=
    (nodup_placesFrom .body p cut).sublist
      ((map_pos_filterMap_sublist _).append (List.Sublist.refl _))
  have hlexemes : (lex .body p (s ++ '-' :: ' ' :: t)).tokens.map Token.lexeme =
      (((Lexer.place .body p cut).filterMap Lexer.token?).map Token.lexeme).map id := by
    simp only [lex, hspaced, map_lexeme_place, cut, List.filterMap_append, List.map_id]
    rfl
  have hissues : (lex .body p (s ++ '-' :: ' ' :: t)).issues.map (fun d => (d.code, d.message)) =
      (lex .body p (s ++ '-' :: t)).issues.map (fun d => (d.code, d.message)) := by
    simp only [lex, hpieces, hspaced, Lexer.place_append, List.filterMap_append, List.map_append]
    exact congrArg (_ ++ ·) (told_issues_place _ _ qs)
  refine ⟨(Lexer.place .body p ps).filterMap Lexer.token?, c :: v,
    (Lexer.place .body ((p.after s).after ('-' :: c :: v)) qs).filterMap Lexer.token?, ?_, ?_⟩
  · simp only [lex, hpieces, Lexer.place_append, List.filterMap_append, hq]
    rfl
  · have htold := checkTokens_elsewhere (map_moved_of_lexemes p (fun _ => .inl rfl) hlexemes)
      (nodup_places .body p _) hplaces env
    simp only [cut, Lexer.place_append, List.filterMap_append, List.foldl_append, hq] at htold
    simp only [checkBody, lexBody, String.toList_ofList, List.map_append, htold, hissues]
    simp only [lex, hpieces, List.foldl_append, hq]
    rfl

/-- **An attached sign counts as a blank, and one with a space behind it is an operator.** Where a
minus sign is attached to a number right behind an operand, the code gets the same complaints in the
same order, with the same codes and the same words, as with a blank in the place of the sign. The
space behind the sign makes two tokens, an operator and a number, of the one, and the complaints are
then those that the code gets when its tokens are read with these two in the place of the one. -/
theorem checkBody_attached_sign {s t : List Char} (h : Attached s t) (env : Surroundings)
    (p : Position) :
    (checkBody env p (String.ofList (s ++ '-' :: t))).map (fun d => (d.code, d.message)) =
        (checkBody env p (String.ofList (s ++ ' ' :: t))).map (fun d => (d.code, d.message)) ∧
      (∃ l w m, Lexer.lexemes .body (s ++ '-' :: t) = l ++ (.number, '-' :: w) :: m ∧
        Lexer.lexemes .body (s ++ '-' :: ' ' :: t) = l ++ (.minus, ['-']) :: (.number, w) :: m) ∧
      ∃ ts w us, (lex .body p (s ++ '-' :: t)).tokens =
          ts ++ ⟨.number, String.ofList ('-' :: w), p.after s⟩ :: us ∧
        (checkBody env p (String.ofList (s ++ '-' :: ' ' :: t))).map
          (fun d => (d.code, d.message)) =
          ((lex .body p (s ++ '-' :: t)).issues ++ checkTokens env (lex .body p (s ++ '-' :: t)).fin
            (ts ++ ⟨.minus, "-", p.after s⟩ ::
              ⟨.number, String.ofList w, (p.after s).after ['-']⟩ ::
              us)).map (fun d => (d.code, d.message)) := by
  refine ⟨h.checkBody_eq env p, ?_, h.checkBody_spaced env p⟩
  obtain ⟨ps, c, v, qs, -, -, hpieces, -, hspaced⟩ := h.pieces_eq
  refine ⟨ps.filterMap Lexer.lexeme?, c :: v, qs.filterMap Lexer.lexeme?, ?_, ?_⟩
  · rw [Lexer.lexemes, hpieces, List.filterMap_append]
    rfl
  · rw [Lexer.lexemes, hspaced, List.filterMap_append]
    rfl

/-- The pieces of the text show that the sign is attached: the `n`th one is a number with it, and
`l` is the last token before. -/
theorem attached_of_pieces (n : Nat) (w : List Char) (l : Kind × List Char)
    (hn : (Lexer.pieces .body (s ++ '-' :: t)).drop n =
      .token .number '-' w :: (Lexer.pieces .body (s ++ '-' :: t)).drop (n + 1))
    (hs : ((Lexer.pieces .body (s ++ '-' :: t)).take n).flatMap Piece.text = s)
    (hl : (((Lexer.pieces .body (s ++ '-' :: t)).take n).filterMap Lexer.lexeme?).getLast? = some l)
    (hk : l.1 ∈ Reader.operandEnds) : Attached s t :=
  ⟨_, w, _, by rw [← hn, List.take_append_drop], hs, l, hl, hk⟩

/-- A parameter and a method, and nothing else that is known. -/
def plainSurroundings : Surroundings := ⟨⟨[], [], []⟩, ["a"], ["f"]⟩

/-- A zero right behind an operand, which is neither the condition nor a divisor. -/
theorem checkBody_attached_sign_zero :
    Attached "if (8 / a ".toList "0) \x7b f(a); \x7d".toList ∧
      (checkBody plainSurroundings ⟨1, 1⟩
        (String.ofList ("if (8 / a ".toList ++ '-' :: "0) \x7b f(a); \x7d".toList))).map
          (fun d => (d.code, d.message)) =
        (checkBody plainSurroundings ⟨1, 1⟩
          (String.ofList ("if (8 / a ".toList ++ ' ' :: "0) \x7b f(a); \x7d".toList))).map
          (fun d => (d.code, d.message)) := by
  have hattached : Attached "if (8 / a ".toList "0) \x7b f(a); \x7d".toList :=
    attached_of_pieces 9 ['0'] (.identifier, ['a']) (by decide +kernel) (by decide +kernel)
      (by decide +kernel) (by decide)
  exact ⟨hattached, (checkBody_attached_sign hattached plainSurroundings ⟨1, 1⟩).1⟩

/-- With a space behind the sign it subtracts, and the argument of the call and the value that is
returned are in order. -/
theorem checkBody_attached_sign_differs :
    Attached "x = f(a ".toList "1);".toList ∧ Attached "return a".toList "1;".toList ∧
      (checkBody plainSurroundings ⟨1, 1⟩ "x = f(a -1);").map Diagnostic.code =
        ["MS-E040", "MS-E045", "MS-W030", "MS-W025"] ∧
      (checkBody plainSurroundings ⟨1, 1⟩ "x = f(a - 1);").map Diagnostic.code = ["MS-W025"] ∧
      (checkBody plainSurroundings ⟨1, 1⟩ "return a-1;").map Diagnostic.code =
        ["MS-E040", "MS-W026"] ∧
      checkBody plainSurroundings ⟨1, 1⟩ "return a- 1;" = [] := by
  refine ⟨attached_of_pieces 8 ['1'] (.identifier, ['a']) ?_ ?_ ?_ ?_,
    attached_of_pieces 3 ['1'] (.identifier, ['a']) ?_ ?_ ?_ ?_, ?_, ?_, ?_, ?_⟩
  all_goals decide +kernel

end Partitura.ManuScript
