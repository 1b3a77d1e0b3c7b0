import Mathlib.Data.List.DropRight
import Partitura.Proofs.ManuScript.Lexemes
import Partitura.Proofs.ManuScript.Places

/-!
# Where the tokens of a text stand

The lexer keeps the place it has come to while it reads. Here the place of a character is told by
its number in the text alone: the line feeds before it are counted, and the characters after the
last of them (`Position.ofOffset`). The two agree (`place_eq_map_offsets`), so every place the lexer
tells can be checked against the text.

Nothing of a text is lost (`lexBody_located`): each token is a segment of the text, the segments
stand one after another without overlap, and each character outside of them is white space or has a
complaint of its own.
-/

namespace Partitura.ManuScript

/-! ## Places and numbers of characters -/

/-- The place of the character with the number `i` in a text that starts at `p`. Columns count from
that of `p` on the first line and from 1 on the others. -/
def Position.ofOffset (p : Position) (cs : List Char) (i : Nat) : Position :=
  if '\n' ∈ cs.take i then
    ⟨p.line + (cs.take i).count '\n', 1 + ((cs.take i).rtakeWhile (· != '\n')).length⟩
  else ⟨p.line, p.col + i⟩

/-- The place after a text, by its line feeds and what stands after the last of them. -/
theorem Position.after_eq (p : Position) (w : List Char) :
    p.after w = if '\n' ∈ w then ⟨p.line + w.count '\n', 1 + (w.rtakeWhile (· != '\n')).length⟩
      else ⟨p.line, p.col + w.length⟩ := by
  -- from the end, as the last character decides whether a new line starts
  induction w using List.reverseRecOn with
  | nil => simp [Position.after]
  | append_singleton w c ih =>
    have hstep : p.after (w ++ [c]) = (p.after w).step c := by simp [Position.after]
    rw [hstep, ih]
    by_cases hc : c = '\n'
    · subst hc
      by_cases hw : '\n' ∈ w <;>
        simp [Position.step, hw, List.count_append, List.count_eq_zero_of_not_mem, Int.add_assoc]
    · by_cases hw :
          '\n' ∈ w <;> simp [Position.step, hw, hc, Ne.symm hc, List.count_append, Int.add_assoc]

theorem Position.after_take (p : Position) {cs : List Char} {i : Nat} (hi : i ≤ cs.length) :
    p.after (cs.take i) = p.ofOffset cs i := by
  rw [Position.after_eq, Position.ofOffset, List.length_take_of_le hi]

theorem Position.after_eq_ofOffset (p : Position) (w t : List Char) :
    p.after w = p.ofOffset (w ++ t) w.length := by
  rw [← Position.after_take p (by simp), List.take_left]

namespace Lexer

/-- The pieces with the numbers of the characters where they start, when the first one starts at
`n`. -/
def offsets (n : Nat) : List Piece → List (Nat × Piece)
  | [] => []
  | q :: ps => (n, q) :: offsets (n + q.text.length) ps

/-- The places of the pieces of a text are those of the characters where they start. -/
theorem place_eq_map_offsets (p : Position) (w : List Char) (ps : List Piece) :
    place .body (p.after w) ps = (offsets w.length ps).map fun x =>
      (p.ofOffset (w ++ ps.flatMap Piece.text) x.1, x.2) := by
  induction ps generalizing w with
  | nil => rfl
  | cons q ps ih =>
    have hnext : afterPiece .body (p.after w) q = p.after (w ++ q.text) := by
      simp [afterPiece, Position.after]
    rw [place, offsets, List.map_cons, hnext, ih, List.length_append, List.append_assoc,
      List.flatMap_cons, ← Position.after_eq_ofOffset]

/-! ## The segments of the pieces -/

variable {n i : Nat} {ps : List Piece} {x y : Nat × Piece}

theorem le_of_mem_offsets (h : x ∈ offsets n ps) : n ≤ x.1 := by
  induction ps generalizing n with
  | nil => cases h
  | cons q ps ih =>
    rcases List.mem_cons.1 h with rfl | h
    · exact Nat.le_refl n
    · exact Nat.le_of_add_right_le (ih h)

/-- A piece stands in the text from where it starts. -/
theorem isPrefix_of_mem_offsets (h : x ∈ offsets n ps) :
    x.2.text <+: (ps.flatMap Piece.text).drop (x.1 - n) := by
  induction ps generalizing n with
  | nil => cases h
  | cons q ps ih =>
    rw [List.flatMap_cons]
    rcases List.mem_cons.1 h with rfl | h
    · simp
    · have hle := le_of_mem_offsets h
      have hpast : x.1 - n = q.text.length + (x.1 - (n + q.text.length)) := by omega
      rw [hpast, ← List.drop_drop, List.drop_left]
      exact ih h

/-- Pieces do not overlap, and come in the order of the text. -/
theorem pairwise_offsets (n : Nat) (ps : List Piece) :
    (offsets n ps).Pairwise fun x y => x.1 + x.2.text.length ≤ y.1 := by
  induction ps generalizing n with
  | nil => exact .nil
  | cons q ps ih =>
    exact List.pairwise_cons.2 ⟨fun y hy => le_of_mem_offsets hy, ih (n + q.text.length)⟩

/-- Every character of a text is in a piece. -/
theorem exists_mem_offsets (hn : n ≤ i) (hi : i < n + (ps.flatMap Piece.text).length) :
    ∃ x ∈ offsets n ps, x.1 ≤ i ∧ i < x.1 + x.2.text.length := by
  induction ps generalizing n with
  | nil => simp at hi; omega
  | cons q ps ih =>
    by_cases hq : i < n + q.text.length
    · exact ⟨(n, q), List.mem_cons_self, hn, hq⟩
    · rw [List.flatMap_cons, List.length_append, ← Nat.add_assoc] at hi
      obtain ⟨x, hx, hin⟩ := ih (Nat.le_of_not_lt hq) hi
      exact ⟨x, List.mem_cons_of_mem _ hx, hin⟩

/-- No character of a text is in two pieces. -/
theorem eq_of_mem_offsets (hx : x ∈ offsets n ps) (hy : y ∈ offsets n ps)
    (hxi : x.1 ≤ i ∧ i < x.1 + x.2.text.length) (hyi : y.1 ≤ i ∧ i < y.1 + y.2.text.length) :
    x = y := by
  induction ps generalizing n with
  | nil => cases hx
  | cons q ps ih =>
    rcases List.mem_cons.1 hx with rfl | hx <;> rcases List.mem_cons.1 hy with rfl | hy
    · rfl
    · have := le_of_mem_offsets hy
      dsimp only at *
      omega
    · have := le_of_mem_offsets hx
      dsimp only at *
      omega
    · exact ih hx hy

/-- A piece is the one at the front of what is left of the text. -/
theorem front_of_mem_offsets {d : Dialect} {cs : List Char} (h : x ∈ offsets n (pieces d cs)) :
    ∃ c r, cs.drop (x.1 - n) = c :: r ∧ x.2 = front d c r := by
  fun_induction pieces d cs generalizing n with
  | case1 => cases h
  | case2 c r ih =>
    rcases List.mem_cons.1 h with rfl | h
    · exact ⟨c, r, by simp, rfl⟩
    · have hle := le_of_mem_offsets h
      have hpast :
          x.1 - n = (front d c r).text.length + (x.1 - (n + (front d c r).text.length)) := by omega
      rw [hpast, ← List.drop_drop]
      exact ih h

/-! ## Issues by their places -/

theorem pos_of_issue? {x : Position × Piece} {d : Diagnostic} (h : issue? x = some d) :
    d.pos = x.1 := by
  obtain ⟨p, q⟩ := x
  unfold issue? at h
  split at h <;> cases h <;> simp_all

/-- When all pieces stand at different places, the issues at the place of one of them are its
own. -/
theorem filter_issues {xs : List (Position × Piece)} (hxs : (xs.map Prod.fst).Nodup)
    {x : Position × Piece} (hx : x ∈ xs) :
    (xs.filterMap issue?).filter (·.pos = x.1) = (issue? x).toList := by
  have hothers : ∀ ys : List (Position × Piece), x.1 ∉ ys.map Prod.fst →
      (ys.filterMap issue?).filter (·.pos = x.1) = [] := by
    intro ys hys
    rw [List.filter_eq_nil_iff]
    intro d hd hpos
    obtain ⟨y, hy, hissue⟩ := List.mem_filterMap.1 hd
    rw [decide_eq_true_eq, pos_of_issue? hissue] at hpos
    exact hys (hpos ▸ List.mem_map_of_mem hy)
  obtain ⟨a, b, rfl⟩ := List.append_of_mem hx
  simp only [List.map_append, List.map_cons, List.nodup_append, List.nodup_cons] at hxs
  obtain ⟨-, ⟨hb, -⟩, hab⟩ := hxs
  have ha : x.1 ∉ a.map Prod.fst := fun h => hab _ h _ List.mem_cons_self rfl
  rw [List.filterMap_append, List.filter_append, hothers a ha, List.nil_append]
  cases hissue : issue? x with
  | none => rw [List.filterMap_cons_none hissue, hothers b hb]; rfl
  | some d =>
    rw [List.filterMap_cons_some hissue,
      List.filter_cons_of_pos (by simp [pos_of_issue? hissue]), hothers b hb]
    rfl

end Lexer

/-! ## Tokens as segments -/

open Lexer

/-- Whether the character with the number `i` belongs to a token that starts at a given number. -/
def Covers (m : Nat × Token) (i : Nat) : Prop := m.1 ≤ i ∧ i < m.1 + m.2.text.length

/-- The tokens of a text with the numbers of the characters where they start, when `pos` tells the
places of characters. -/
def marksAt (pos : Nat → Position) (d : Dialect) (cs : List Char) : List (Nat × Token) :=
  (offsets 0 (pieces d cs)).filterMap fun x => (token? (pos x.1, x.2)).map (Prod.mk x.1)

section Marks

variable {pos : Nat → Position} {d : Dialect} {cs : List Char} {m : Nat × Token}

theorem mem_marksAt : m ∈ marksAt pos d cs ↔
    ∃ k c r, (m.1, Piece.token k c r) ∈ offsets 0 (pieces d cs) ∧
      m.2 = ⟨k, String.ofList (c :: r), pos m.1⟩ := by
  obtain ⟨n, t⟩ := m
  simp only [marksAt, List.mem_filterMap, Option.map_eq_some_iff]
  constructor
  · rintro ⟨⟨n', q⟩, hx, t', ht, heq⟩
    cases heq
    cases q <;> cases ht
    exact ⟨_, _, _, hx, rfl⟩
  · rintro ⟨k, c, r, hx, rfl⟩
    exact ⟨_, hx, _, rfl, rfl⟩

/-- When the pieces are placed as told, the marks have all tokens, in order. -/
theorem map_snd_marksAt {p : Position}
    (h : place d p (pieces d cs) = (offsets 0 (pieces d cs)).map fun x => (pos x.1, x.2)) :
    (marksAt pos d cs).map Prod.snd = (lex d p cs).tokens := by
  simp [marksAt, lex, h, List.map_filterMap, List.filterMap_map, Function.comp_def]

theorem spelled_of_mem_marksAt (hm : m ∈ marksAt pos d cs) :
    m.2.text ≠ "" ∧ m.2.text.toList <+: cs.drop m.1 := by
  obtain ⟨k, c, r, hx, ht⟩ := mem_marksAt.1 hm
  have htext := isPrefix_of_mem_offsets hx
  rw [flatMap_text_pieces] at htext
  rw [ht]
  exact ⟨by simp [← String.toList_inj], by simpa [Piece.text] using htext⟩

theorem pairwise_marksAt (pos : Nat → Position) (d : Dialect) (cs : List Char) :
    (marksAt pos d cs).Pairwise fun m m' => m.1 + m.2.text.length ≤ m'.1 := by
  refine List.pairwise_filterMap.2 ((pairwise_offsets 0 (pieces d cs)).imp ?_)
  rintro ⟨n, q⟩ ⟨n', q'⟩ hle m hm m' hm'
  cases q <;> cases hm
  cases q' <;> cases hm'
  dsimp only
  rwa [String.length_ofList]

/-- A character outside of all tokens is a piece of its own. -/
theorem piece_of_not_covers {i : Nat} {c : Char} {r : List Char} (hc : cs.drop i = c :: r)
    (hout : ∀ m ∈ marksAt pos d cs, ¬ Covers m i) :
    ((i, .gap c) ∈ offsets 0 (pieces d cs) ∧ isGap c = true) ∨
      ((i, .stray c) ∈ offsets 0 (pieces d cs) ∧ front d c r = .stray c) := by
  have hi : i < 0 + ((pieces d cs).flatMap Piece.text).length := by
    have hlength := congrArg List.length hc
    rw [List.length_drop, List.length_cons] at hlength
    rw [flatMap_text_pieces]
    omega
  obtain ⟨⟨n, q⟩, hx, hle, hlt⟩ := exists_mem_offsets (Nat.zero_le i) hi
  obtain ⟨c', r', hdrop, hfront⟩ := front_of_mem_offsets hx
  dsimp only at hle hlt hdrop hfront
  -- a piece of one character that has the character number `i` starts there
  have hfirst : q.text.length = 1 → n = i ∧ q = front d c r := by
    intro hlength
    obtain rfl : n = i := by omega
    rw [Nat.sub_zero, hc, List.cons.injEq] at hdrop
    rw [hfront, hdrop.1, hdrop.2]
    exact ⟨rfl, rfl⟩
  cases q with
  | gap x =>
    obtain ⟨rfl, hq⟩ := hfirst rfl
    obtain ⟨rfl, hgap⟩ := first_of_front_gap hq.symm
    exact .inl ⟨hx, hgap⟩
  | stray x =>
    obtain ⟨rfl, hq⟩ := hfirst rfl
    have hstarts := text_front_isPrefix d c r
    rw [← hq, Piece.text, List.cons_prefix_cons] at hstarts
    obtain ⟨rfl, -⟩ := hstarts
    exact .inr ⟨hx, hq.symm⟩
  | token k x v =>
    refine absurd ⟨hle, ?_⟩
      (hout (n, ⟨k, String.ofList (x :: v), pos n⟩) (mem_marksAt.2 ⟨k, x, v, hx, rfl⟩))
    rwa [String.length_ofList]

/-- No token covers the start of a piece that is none. -/
theorem not_covers_of_mem_offsets {i : Nat} {q : Piece} (h : (i, q) ∈ offsets 0 (pieces d cs))
    (hq : ∀ k c r, q ≠ .token k c r) (hm : m ∈ marksAt pos d cs) : ¬ Covers m i := by
  obtain ⟨k, c, r, hx, ht⟩ := mem_marksAt.1 hm
  rintro ⟨hle, hlt⟩
  rw [ht, String.length_ofList] at hlt
  have heq :=
    eq_of_mem_offsets h hx ⟨Nat.le_refl i, Nat.lt_add_of_pos_right q.length_text_pos⟩ ⟨hle, hlt⟩
  exact hq k c r (Prod.mk.inj heq).2

end Marks

/-! ## Nothing is lost -/

/-- The tokens of a lexed text with the numbers of the characters where they start account for all
of the text: for its characters, and for all places and issues. -/
structure Located (p : Position) (cs : List Char) (l : Lexed)
    (marks : List (Nat × Token)) : Prop where
  /-- All tokens are told, in order, and the end of the text stands after its last character. -/
  all_eq : l.all = marks.map Prod.snd ++ [⟨.fin, "", p.ofOffset cs cs.length⟩]
  /-- A token has the text of its segment. -/
  spelled : ∀ m ∈ marks, m.2.text ≠ "" ∧ m.2.text.toList <+: cs.drop m.1
  /-- A segment ends before the next one starts. -/
  apart : marks.Pairwise fun m m' => m.1 + m.2.text.length ≤ m'.1
  /-- A token stands at the place of its first character. -/
  placed : ∀ m ∈ marks, m.2.pos = p.ofOffset cs m.1
  /-- A character outside of all tokens is white space, or has one issue at its place. -/
  outside : ∀ i c, cs[i]? = some c → (∀ m ∈ marks, ¬ Covers m i) →
    l.issues.filter (·.pos = p.ofOffset cs i) =
      if isGap c then [] else [⟨p.ofOffset cs i, .unexpectedCharacter c⟩]
  /-- A string that is not closed has one issue at its place. -/
  unclosed : ∀ m ∈ marks, m.2.kind = .invalid →
    l.issues.filter (·.pos = m.2.pos) = [⟨m.2.pos, .unterminatedString⟩]
  /-- There are no other issues. -/
  issues : ∀ d ∈ l.issues, (∃ m ∈ marks, m.2.kind = .invalid ∧ d = ⟨m.2.pos, .unterminatedString⟩) ∨
    ∃ i c, cs[i]? = some c ∧ isGap c = false ∧ (∀ m ∈ marks, ¬ Covers m i) ∧
      d = ⟨p.ofOffset cs i, .unexpectedCharacter c⟩

/-- The tokens of a text with the numbers of the characters where they start. -/
def marks (p : Position) (cs : List Char) : List (Nat × Token) := marksAt (p.ofOffset cs) .body cs

variable {p : Position} {cs : List Char} {m : Nat × Token}

theorem place_pieces (p : Position) (cs : List Char) :
    place .body p (pieces .body cs) = (offsets 0 (pieces .body cs)).map fun x =>
      (p.ofOffset cs x.1, x.2) := by
  have h := place_eq_map_offsets p [] (pieces .body cs)
  rwa [List.nil_append, flatMap_text_pieces] at h

theorem fin_lex (p : Position) (cs : List Char) :
    (lex .body p cs).fin = p.ofOffset cs cs.length := by
  rw [lex, foldl_afterPiece, flatMap_text_pieces, ← Position.after_take p (Nat.le_refl _),
    List.take_length]

/-- The issues at the place where a piece starts are its own. -/
theorem filter_issues_lex {n : Nat} {q : Piece} (h : (n, q) ∈ offsets 0 (pieces .body cs)) :
    (lex .body p cs).issues.filter (·.pos = p.ofOffset cs n) =
      (issue? (p.ofOffset cs n, q)).toList := by
  have hplaces : ((place .body p (pieces .body cs)).map Prod.fst).Nodup :=
    (nodup_placesFrom .body p (pieces .body cs)).sublist (List.sublist_append_left _ _)
  refine filter_issues hplaces (x := (p.ofOffset cs n, q)) ?_
  rw [place_pieces]
  exact List.mem_map_of_mem h

theorem located_lex (p : Position) (cs : List Char) :
    Located p cs (lex .body p cs) (marks p cs) where
  all_eq := by rw [Lexed.all, Lexed.finToken, marks, map_snd_marksAt (place_pieces p cs), fin_lex]
  spelled := fun _ hm => spelled_of_mem_marksAt hm
  apart := pairwise_marksAt _ _ cs
  placed := by
    intro m hm
    obtain ⟨k, c, r, hx, ht⟩ := mem_marksAt.1 hm
    rw [ht]
  outside := by
    intro i c hc hout
    obtain ⟨hi, rfl⟩ := List.getElem?_eq_some_iff.1 hc
    rcases piece_of_not_covers (List.drop_eq_getElem_cons hi) hout with ⟨hx, hgap⟩ | ⟨hx, hstray⟩
    · rw [filter_issues_lex hx, hgap]
      rfl
    · rw [filter_issues_lex hx, not_isGap_of_stray hstray]
      rfl
  unclosed := by
    intro m hm hkind
    obtain ⟨k, c, r, hx, ht⟩ := mem_marksAt.1 hm
    rw [ht] at hkind ⊢
    subst hkind
    rw [filter_issues_lex hx]
    rfl
  issues := by
    intro d hd
    rw [lex, place_pieces, List.mem_filterMap] at hd
    obtain ⟨_, hplace, hissue⟩ := hd
    obtain ⟨⟨n, q⟩, hx, rfl⟩ := List.mem_map.1 hplace
    cases q with
    | gap c => cases hissue
    | stray c =>
      cases hissue
      obtain ⟨_, _, -, hfront⟩ := front_of_mem_offsets hx
      obtain ⟨t, ht⟩ := isPrefix_of_mem_offsets hx
      have hget : cs[n]? = some c := by
        rw [flatMap_text_pieces] at ht
        rw [← List.head?_drop, ← Nat.sub_zero n, ← ht]
        rfl
      exact .inr ⟨n, c, hget, not_isGap_of_stray hfront.symm,
        fun m hm => not_covers_of_mem_offsets hx (by simp) hm, rfl⟩
    | token k c r =>
      obtain rfl : k = .invalid := by
        cases k <;> first | rfl | cases hissue
      cases hissue
      exact .inl ⟨(n, ⟨.invalid, String.ofList (c :: r), p.ofOffset cs n⟩),
        mem_marksAt.2 ⟨.invalid, c, r, hx, rfl⟩, rfl, rfl⟩

/-- Nothing of the code of a method is lost when it is lexed, and all that is told about it stands
at its place: the tokens are segments of the code one after another, each character outside of them
is white space or has an issue of its own, and so has each string that is not closed. -/
theorem lexBody_located (p : Position) (s : String) :
    (∃ marks, Located p s.toList (lexBody p s) marks) ∧ Issue.unterminatedString.code = "MS-E030" ∧
      ∀ c, (Issue.unexpectedCharacter c).code = "MS-E031" :=
  ⟨⟨marks p s.toList, located_lex p s.toList⟩, rfl,
    fun _ => show Rule.code ⟨.error, 31⟩ = "MS-E031" by rfl⟩

end Partitura.ManuScript
