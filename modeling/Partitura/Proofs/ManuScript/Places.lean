import Mathlib.Data.List.Chain
import Mathlib.Logic.Equiv.Basic
import Partitura.ManuScript.Check
import Partitura.Proofs.ManuScript.Lexemes
import Partitura.Proofs.ManuScript.Retelling

/-!
# Tokens at other places

Of the words of comments nothing is read, and of numbers only those that may be a condition or a
divisor are. So when all tokens are moved to other places, and comments and the other numbers are
worded in another way, the reader tells the same about them at the new places (`program_retold`).
What is then said about the names of the body asks only which places are the same: it does not
change either if no two places fall together (`analyse_move`).

The tokens of a text all stand at different places (`nodup_places`), so the tokens of one text can
be moved to the places of as many others by a permutation of all places (`exists_perm_map_eq`), and
the same is said about them there (`checkTokens_elsewhere`).
-/

namespace Partitura.ManuScript

open Lexer

variable (σ : Position → Position) (ν : Token → String)

/-- The token at another place, and without its words if it is a comment. -/
def Token.moved (t : Token) : Token :=
  if t.kind = .comment then ⟨.comment, "", σ t.pos⟩ else t.move σ

/-- The token at another place, and in other words if it is a comment or a number. -/
def Token.retold (t : Token) : Token :=
  if t.kind = .comment ∨ t.kind = .number then ⟨t.kind, ν t, σ t.pos⟩ else t.move σ

theorem Token.moved_eq {t : Token} (h : t.kind ≠ .comment) : t.moved σ = t.move σ := if_neg h

@[simp] theorem Token.kind_retold (t : Token) : (t.retold σ ν).kind = t.kind := by
  unfold Token.retold
  split <;> rfl

@[simp] theorem Token.pos_retold (t : Token) : (t.retold σ ν).pos = σ t.pos := by
  unfold Token.retold
  split <;> rfl

theorem Token.retold_eq {t : Token} (hc : t.kind ≠ .comment)
    (hn : t.kind = .number → ν t = t.text) : t.retold σ ν = t.move σ := by
  by_cases h : t.kind = .number
  · rw [Token.retold, if_pos (.inr h), hn h]
    rfl
  · exact if_neg (not_or.2 ⟨hc, h⟩)

theorem Token.retold_of_kind {t : Token} {k : Kind} (h : t.kind = k)
    (hk : k ∉ [.comment, .number]) : t.retold σ ν = t.move σ := by
  subst h
  simp only [List.mem_cons, List.not_mem_nil, or_false, not_or] at hk
  exact t.retold_eq σ ν hk.1 fun hn => absurd hn hk.2

/-- Only comments lose their words. -/
theorem Token.moved_eq_retold : Token.moved σ = Token.retold σ fun t =>
    if t.kind = .comment then "" else t.text := by
  funext t
  by_cases hc : t.kind = .comment
  · rw [Token.moved, Token.retold, if_pos hc, if_pos (.inl hc), if_pos hc, hc]
  · rw [Token.moved, if_neg hc, Token.retold_eq σ _ hc fun _ => if_neg hc]

namespace Reader

open Grammar

/-- The number at the front, if one stands there, keeps its words. -/
def KeepsFront (ts : List Token) : Prop := ∀ u ∈ ts.head?, u.kind = .number → ν u = u.text

/-- The numbers that are read out keep their words: those behind an opening parenthesis, which may
be conditions, and those behind an operator of a product, which may be divisors. -/
def Faithful : List Token → Prop
  | [] => True
  | t :: r => (t.kind ∈ .lparen :: operators 4 → KeepsFront ν (skip r)) ∧ Faithful r

variable {ν}

/-- Tokens all of whose numbers keep their words. -/
theorem faithful_of_forall {ts : List Token} (h : ∀ t ∈ ts, t.kind = .number → ν t = t.text) :
    Faithful ν ts := by
  induction ts with
  | nil => trivial
  | cons t r ih =>
    refine ⟨fun _ u hu => ?_, ih fun u hu => h u (List.mem_cons_of_mem t hu)⟩
    exact h u (List.mem_cons_of_mem t ((skip_suffix r).subset (List.mem_of_mem_head? hu)))

/-- Comments and numbers in other words, at other places. -/
def retelling (ν : Token → String) : Retelling where
  place := σ
  token := Token.retold σ ν
  comments := true
  kind_token := Token.kind_retold σ ν
  pos_token := Token.pos_retold σ ν
  token_eq := Token.retold_of_kind σ ν rfl

theorem tokens_retelling (ts : List Token) :
    (retelling σ ν).tokens ts = ts.map (Token.retold σ ν) := by
  simp [Retelling.tokens, retelling]

theorem Faithful.suits {ts : List Token} (h : Faithful ν ts) : (retelling σ ν).Suits ts := by
  induction ts with
  | nil => trivial
  | cons t r ih =>
    refine ⟨fun ht u hu hn => ?_, nofun, ih h.2⟩
    exact Token.retold_eq σ ν (by rw [hn]; decide) fun _ => h.1 ht u hu hn

/-- A program is read alike at other places and with other numbers. -/
theorem program_retold (fin : Position) {ts : List Token} (hν : Faithful ν ts) :
    program (σ fin) (ts.map (Token.retold σ ν)) = (program fin ts).map (Event.move σ) := by
  rw [← tokens_retelling]
  exact Retelling.program_tokens fin (hν.suits σ)

end Reader

/-! ## The names of a body -/

/-- What has been seen of a body whose tokens stand at other places. -/
def Scope.move (s : Scope) : Scope := { s with assignments := s.assignments.map (Token.move σ) }

variable {σ ν}

theorem Token.move_inj (hσ : Function.Injective σ) {t u : Token} (h : t.move σ = u.move σ) :
    t = u := by
  obtain ⟨k, x, p⟩ := t
  obtain ⟨k', x', p'⟩ := u
  simp only [Token.move, Token.mk.injEq] at h ⊢
  exact ⟨h.1, h.2.1, hσ h.2.2⟩

theorem Scope.firstAssignment?_move (s : Scope) (name : String) :
    (s.move σ).firstAssignment? name = (s.firstAssignment? name).map (Token.move σ) := by
  rw [Scope.firstAssignment?, Scope.move, List.find?_map]
  rfl

/-- A name that is read is told from the target of its first assignment by its place. -/
theorem Scope.next_move (hσ : Function.Injective σ) (s : Scope) (e : Event) :
    (s.move σ).next (e.move σ) = (s.next e).move σ := by
  cases e with
  | assigned t =>
    simp only [Event.move, Scope.next, Scope.firstAssignment?_move,
      show (t.move σ).text = t.text from rfl, Option.isSome_map]
    simp only [Scope.move]
    split <;> simp
  | read t q =>
    have hsame : (s.firstAssignment? t.text).map (Token.move σ) = some (t.move σ) ↔
        s.firstAssignment? t.text = some t := by
      cases s.firstAssignment? t.text with
      | none => simp
      | some u => simpa using ⟨Token.move_inj hσ, fun h => h ▸ rfl⟩
    simp only [Event.move, Scope.next, Scope.firstAssignment?_move,
      show (t.move σ).text = t.text from rfl, hsame]
    split <;> rfl
  | statement p =>
    simp only [Event.move, Scope.next, apply_ite (Scope.move σ)]
    rfl
  | closed =>
    simp only [Event.move, Scope.next, Scope.move]
    split <;> rfl
  | _ => rfl

theorem Surroundings.arityComplaints_move (name : Token) (got : Nat) (arities : List Arity) :
    arityComplaints (name.move σ) got arities =
      (arityComplaints name got arities).map (Diagnostic.move σ) := by
  simp only [arityComplaints, apply_ite (List.map (Diagnostic.move σ))]
  rfl

theorem Surroundings.callComplaints_move (env : Surroundings) (receiver : Option String)
    (name : Token) (got : Nat) :
    env.callComplaints receiver (name.move σ) got =
      (env.callComplaints receiver name got).map (Diagnostic.move σ) := by
  simp only [callComplaints, show (name.move σ).text = name.text from rfl]
  split
  · split
    · rfl
    · exact arityComplaints_move name got _
  · split
    · exact arityComplaints_move name got _
    · rw [apply_ite (List.map (Diagnostic.move σ))]
      rfl

theorem Surroundings.memberComplaints_move (env : Surroundings) (receiver : String) (name : Token) :
    env.memberComplaints receiver (name.move σ) =
      (env.memberComplaints receiver name).map (Diagnostic.move σ) := by
  simp only [memberComplaints, show (name.move σ).text = name.text from rfl]
  split
  · rfl
  · rw [apply_ite (List.map (Diagnostic.move σ))]
    rfl

theorem Surroundings.complaints_move (env : Surroundings) (s : Scope) (e : Event) :
    env.complaints (s.move σ) (e.move σ) = (env.complaints s e).map (Diagnostic.move σ) := by
  cases e with
  | called receiver name got => exact env.callComplaints_move receiver name got
  | accessed receiver name => exact env.memberComplaints_move receiver name
  | statement p =>
    simp only [Event.move, complaints, apply_ite (List.map (Diagnostic.move σ))]
    rfl
  | assigned t =>
    simp only [Event.move, complaints, apply_ite (List.map (Diagnostic.move σ))]
    rfl
  | read t q =>
    simp only [Event.move, complaints, apply_ite (List.map (Diagnostic.move σ))]
    rfl
  | _ => rfl

theorem Surroundings.unused_move (env : Surroundings) (s : Scope) :
    env.unused (s.move σ) = (env.unused s).map (Diagnostic.move σ) := by
  simp only [unused, Scope.move, List.filter_map, List.map_map]
  rfl

/-- What is said about the names of a body does not change at other places. -/
theorem Surroundings.analyse_move (hσ : Function.Injective σ) (env : Surroundings) (s : Scope)
    (es : List Event) :
    env.analyse (s.move σ)
    (es.map (Event.move σ)) = (env.analyse s es).map (Diagnostic.move σ) := by
  induction es generalizing s with
  | nil => exact env.unused_move s
  | cons e es ih =>
    rw [List.map_cons, Surroundings.analyse, Surroundings.complaints_move, Scope.next_move hσ, ih,
      ← List.map_append]
    rfl

/-- Tokens at other places, with comments and numbers in other words, get the same complaints at the
new places. -/
theorem checkTokens_retold (hσ : Function.Injective σ) (env : Surroundings) (fin : Position)
    {ts : List Token} (hν : Reader.Faithful ν ts) :
    checkTokens env (σ fin)
    (ts.map (Token.retold σ ν)) = (checkTokens env fin ts).map (Diagnostic.move σ) := by
  rw [checkTokens, Reader.program_retold σ fin hν]
  exact env.analyse_move hσ {} _

/-- Tokens at other places, with comments in other words, get the same complaints at the new
places. -/
theorem checkTokens_moved (hσ : Function.Injective σ) (env : Surroundings) (fin : Position)
    (ts : List Token) :
    checkTokens env (σ fin)
    (ts.map (Token.moved σ)) = (checkTokens env fin ts).map (Diagnostic.move σ) := by
  rw [Token.moved_eq_retold]
  refine checkTokens_retold hσ env fin (Reader.faithful_of_forall fun t _ ht => ?_)
  exact if_neg (by rw [ht]; decide)

/-! ## The places of the tokens of a text -/

/-- One place stands before another in a text. -/
def Position.Before (p q : Position) : Prop := p.line < q.line ∨ (p.line = q.line ∧ p.col < q.col)

theorem Position.Before.trans {p q r : Position} (h : p.Before q) (h' : q.Before r) :
    p.Before r := by
  unfold Position.Before at *
  omega

theorem Position.not_before_self (p : Position) : ¬ p.Before p := by
  unfold Position.Before
  omega

theorem Position.before_step (p : Position) (c : Char) : p.Before (p.step c) := by
  unfold Position.step Position.Before
  split <;> dsimp only <;> omega

theorem Position.before_after (p : Position) {cs : List Char} (h : cs ≠ []) :
    p.Before (p.after cs) := by
  induction cs generalizing p with
  | nil => exact absurd rfl h
  | cons c r ih =>
    by_cases hr : r = []
    · subst hr
      exact p.before_step c
    · exact (p.before_step c).trans (ih (p.step c) hr)

theorem before_afterPiece (d : Dialect) (p : Position) (q : Piece) :
    p.Before (afterPiece d p q) := by
  unfold afterPiece
  split
  · unfold Position.Before
    dsimp only
    omega
  · exact p.before_after (List.ne_nil_of_length_pos q.length_text_pos)

theorem foldl_afterPiece (p : Position) (ps : List Piece) :
    ps.foldl (afterPiece .body) p = p.after (ps.flatMap Piece.text) := by
  induction ps generalizing p with
  | nil => rfl
  | cons q ps ih => simp [ih, afterPiece, Position.after]

/-- The places of all pieces of a text, and that of its end. -/
def placesFrom (d : Dialect) (p : Position) (ps : List Piece) : List Position :=
  (place d p ps).map Prod.fst ++ [ps.foldl (afterPiece d) p]

theorem isChain_placesFrom (d : Dialect) (p : Position) (ps : List Piece) :
    (placesFrom d p ps).head? = some p ∧ (placesFrom d p ps).IsChain Position.Before := by
  induction ps generalizing p with
  | nil => exact ⟨rfl, List.isChain_singleton _⟩
  | cons q ps ih =>
    obtain ⟨hhead, hchain⟩ := ih (afterPiece d p q)
    refine ⟨rfl, ?_⟩
    change List.IsChain _ (p :: placesFrom d (afterPiece d p q) ps)
    obtain ⟨t, ht⟩ : ∃ t, placesFrom d (afterPiece d p q) ps = afterPiece d p q :: t := by
      cases h : placesFrom d (afterPiece d p q) ps with
      | nil => rw [h] at hhead; cases hhead
      | cons x t => rw [h] at hhead; cases hhead; exact ⟨t, rfl⟩
    rw [ht] at hchain ⊢
    exact List.isChain_cons_cons.2 ⟨before_afterPiece d p q, hchain⟩

theorem nodup_placesFrom (d : Dialect) (p : Position) (ps : List Piece) :
    (placesFrom d p ps).Nodup := by
  have : IsTrans Position Position.Before := ⟨fun _ _ _ => Position.Before.trans⟩
  refine (List.isChain_iff_pairwise.1 (isChain_placesFrom d p ps).2).imp fun h => ?_
  rintro rfl
  exact Position.not_before_self _ h

theorem pos_of_token? {x : Position × Piece} {t : Token} (h : token? x = some t) : t.pos = x.1 := by
  obtain ⟨p, q⟩ := x
  cases q <;> cases h
  rfl

theorem map_pos_filterMap_sublist (xs : List (Position × Piece)) :
    ((xs.filterMap token?).map Token.pos).Sublist (xs.map Prod.fst) := by
  induction xs with
  | nil => exact List.nil_sublist _
  | cons x xs ih =>
    cases h : token? x with
    | none =>
      rw [List.filterMap_cons_none h]
      exact ih.cons _
    | some t =>
      rw [List.filterMap_cons_some h, List.map_cons, List.map_cons, pos_of_token? h]
      exact ih.cons_cons _

/-- No two tokens of a text stand at the same place. -/
theorem nodup_places (d : Dialect) (p : Position) (cs : List Char) :
    ((lex d p cs).tokens.map Token.pos ++ [(lex d p cs).fin]).Nodup :=
  (nodup_placesFrom d p (pieces d cs)).sublist
    ((map_pos_filterMap_sublist _).append (List.Sublist.refl _))

/-- A list without repetitions is taken to any other of the same length by a permutation. -/
theorem exists_perm_map_eq {α : Type} [DecidableEq α] {xs ys : List α}
    (hlen : xs.length = ys.length) (hxs : xs.Nodup) (hys : ys.Nodup) :
    ∃ σ : Equiv.Perm α, xs.map σ = ys := by
  induction xs generalizing ys with
  | nil => exact ⟨Equiv.refl α, (List.eq_nil_of_length_eq_zero hlen.symm).symm⟩
  | cons x xs ih =>
    cases ys with
    | nil => cases hlen
    | cons y ys =>
      obtain ⟨hx, hxs⟩ := List.nodup_cons.1 hxs
      obtain ⟨hy, hys⟩ := List.nodup_cons.1 hys
      obtain ⟨σ, rfl⟩ := ih (by simpa using hlen) hxs hys
      -- `x` goes to `y`, and what went there goes to where `x` went
      refine ⟨σ.trans (Equiv.swap (σ x) y), ?_⟩
      rw [List.map_cons, Equiv.trans_apply, Equiv.swap_apply_left]
      refine congrArg (y :: ·) (List.map_congr_left fun z hz => ?_)
      have hzx : σ z ≠ σ x := fun h => hx (σ.injective h ▸ hz)
      have hzy : σ z ≠ y := fun h => hy (h ▸ List.mem_map_of_mem hz)
      rw [Equiv.trans_apply, Equiv.swap_apply_of_ne_of_ne hzx hzy]

/-- Two tokens that are the same but for their places are still the same at one place. -/
theorem Token.moved_congr {σ τ : Position → Position} {o : Position} {t t' : Token}
    (h : t.moved (fun _ => o) = t'.moved fun _ => o) (hpos : σ t.pos = τ t'.pos) :
    t.moved σ = t'.moved τ := by
  unfold Token.moved Token.move at *
  grind

theorem map_moved_congr {σ τ : Position → Position} {o : Position} {ts ts' : List Token}
    (h : ts.map (Token.moved fun _ => o) = ts'.map (Token.moved fun _ => o))
    (hpos : (ts.map Token.pos).map σ = (ts'.map Token.pos).map τ) :
    ts.map (Token.moved σ) = ts'.map (Token.moved τ) := by
  induction ts generalizing ts' with
  | nil =>
    cases ts' with
    | nil => rfl
    | cons t' r' => cases h
  | cons t r ih =>
    cases ts' with
    | nil => cases h
    | cons t' r' =>
      simp only [List.map_cons, List.cons.injEq] at h hpos ⊢
      exact ⟨Token.moved_congr h.1 hpos.1, ih h.2 hpos.2⟩

/-- Tokens whose lexemes agree but for the words of comments are the same at one place. -/
theorem map_moved_of_lexemes (o : Position) {f : Kind × List Char → Kind × List Char}
    (hf : ∀ l, f l = l ∨ l.1 = .comment ∧ (f l).1 = .comment) {ts ts' : List Token}
    (h : ts'.map Token.lexeme = (ts.map Token.lexeme).map f) :
    ts'.map (Token.moved fun _ => o) = ts.map (Token.moved fun _ => o) := by
  let put (l : Kind × List Char) : Token := Token.moved (fun _ => o) ⟨l.1, String.ofList l.2, o⟩
  have hput : Token.moved (fun _ => o) = put ∘ Token.lexeme := by
    funext t
    simp only [put, Function.comp_apply, Token.lexeme, String.ofList_toList]
    rfl
  have hwords : put ∘ f = put := by
    funext l
    rcases hf l with hl | ⟨hl, hl'⟩
    · exact congrArg put hl
    · simp only [put, Function.comp_apply, Token.moved, hl, hl', if_true]
  rw [hput, ← List.map_map, ← List.map_map, h, List.map_map, hwords]

/-- **What is said about tokens does not depend on where they stand,** if no two of them stand at
the same place, nor on the words of comments. -/
theorem checkTokens_elsewhere {o fin fin' : Position} {ts ts' : List Token}
    (h : ts.map (Token.moved fun _ => o) = ts'.map (Token.moved fun _ => o))
    (hts : (ts.map Token.pos ++ [fin]).Nodup) (hts' : (ts'.map Token.pos ++ [fin']).Nodup)
    (env : Surroundings) :
    (checkTokens env fin ts).map (fun d => (d.code, d.message)) =
      (checkTokens env fin' ts').map (fun d => (d.code, d.message)) := by
  have hlen : ts.length = ts'.length := by simpa using congrArg List.length h
  obtain ⟨σ, hσ⟩ := exists_perm_map_eq (by simpa using hlen) hts hts'
  rw [List.map_append] at hσ
  obtain ⟨hpos, hfin⟩ := List.append_inj hσ (by simpa using hlen)
  have hword (τ : Position → Position) (ds : List Diagnostic) :
      (ds.map (Diagnostic.move τ)).map (fun d => (d.code, d.message)) =
        ds.map (fun d => (d.code, d.message)) := by
    rw [List.map_map]
    rfl
  have hmoved : (checkTokens env fin ts).map (Diagnostic.move σ) =
      (checkTokens env fin' ts').map (Diagnostic.move id) := by
    rw [← checkTokens_moved σ.injective, ← checkTokens_moved Function.injective_id,
      map_moved_congr h (by rw [hpos, List.map_id]), show σ fin = fin' by simpa using hfin]
    rfl
  rw [← hword σ, hmoved, hword id]

end Partitura.ManuScript
