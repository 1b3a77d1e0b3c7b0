import Partitura.Proofs.ManuScript.Clauses

/-!
# Tokens told in another way

A `Retelling` tells tokens again, at other places and in other words, with the comments among them
or without. The reader asks for the kinds of tokens and for the texts of those that are no comments;
of the numbers it reads out only those that may be a condition or a divisor; and it passes over the
comments that it meets, but not at every place: in some it looks at the very next token. `Suits`
says that the numbers that are read out keep their words and that comments are left out only where
they are passed over. What is told about such tokens is then told at the new places
(`program_tokens`).

The proof goes along the rules of the reader. A rule that passes over comments applies to the tokens
that are told as it is; one that looks at the next token needs to know that this is no comment that
is left out, or none that hides the token which the rule asks for. Which of the two each part of the
reader relies on where it starts is `Admissible`, and what it owes to the part behind it is
`Settled`.
-/

namespace Partitura.ManuScript

/-- The token at another place. -/
def Token.move (σ : Position → Position) (t : Token) : Token := { t with pos := σ t.pos }

/-- The same issue at another place. -/
def Diagnostic.move (σ : Position → Position) (d : Diagnostic) : Diagnostic :=
  { d with pos := σ d.pos }

/-- The same event with all its tokens at other places. -/
def Event.move (σ : Position → Position) : Event → Event
  | .issue d => .issue (d.move σ)
  | .statement p => .statement (σ p)
  | .returned => .returned
  | .opened => .opened
  | .closed => .closed
  | .assigned t => .assigned (t.move σ)
  | .bound name => .bound name
  | .read t q => .read (t.move σ) q
  | .called receiver name n => .called receiver (name.move σ) n
  | .accessed receiver name => .accessed receiver (name.move σ)

/-- A way of telling tokens again. Only comments and numbers may be told in other words. -/
structure Retelling where
  place : Position → Position
  token : Token → Token
  /-- Whether comments are told at all. -/
  comments : Bool
  kind_token (t : Token) : (token t).kind = t.kind
  pos_token (t : Token) : (token t).pos = place t.pos
  token_eq {t : Token} : t.kind ∉ [.comment, .number] → token t = t.move place

namespace Reader

open Grammar

/-- Comments between tokens of these kinds are passed over. A block is taken to be empty only if the
closing brace follows at once, a property name is looked for right behind its colon, a name is asked
for the token right behind it, and so is an operator for a sign or a name. -/
structure Admits (before after : Kind) : Prop where
  block : before = .lbrace → after ≠ .rbrace
  property : before ≠ .colon
  name : before = .identifier → after ∉ .dot :: .lparen :: operators 2
  operator : before ∈ operators 0 ++ operators 1 ++ operators 2 ++ signs →
    after ∉ .identifier :: signs

/-- The same part of the reader, with the tokens that it remembers at other places. -/
@[simp] def Phrase.move (σ : Position → Position) : Phrase → Phrase
  | .expression s => .expression s
  | .operation s => .operation s
  | .level s n => .level s n
  | .tail s n lhs => .tail s n (lhs.map (Token.move σ))
  | .chain s => .chain s
  | .operand s => .operand s
  | .links s receiver last => .links s receiver (last.map (Token.move σ))
  | .arguments s n => .arguments s n
  | .moreArguments s m n => .moreArguments s m n

end Reader

namespace Retelling

open Reader Grammar

attribute [simp] kind_token pos_token

variable (ρ : Retelling) {k : Kind} {fin : Position} {p : Phrase} {e : List Event} {c : Clause}
  {op : Token} {n : Nat}

theorem token_of_kind {t : Token} (h : t.kind = k) (hk : k ∉ [.comment, .number]) :
    ρ.token t = t.move ρ.place :=
  ρ.token_eq (h ▸ hk)

theorem text_token {t : Token} (h : t.kind = .identifier) : (ρ.token t).text = t.text := by
  rw [ρ.token_of_kind h (by decide)]
  rfl

/-- The tokens that are told. -/
def tokens (ts : List Token) : List Token :=
  (ts.filter fun t => ρ.comments || t.kind != .comment).map ρ.token

@[simp] theorem tokens_nil : ρ.tokens [] = [] := rfl

theorem tokens_cons {t : Token} (h : t.kind ≠ .comment) (r : List Token) :
    ρ.tokens (t :: r) = ρ.token t :: ρ.tokens r := by
  rw [tokens, List.filter_cons_of_pos (by simp [h]), List.map_cons, tokens]

theorem tokens_comment {t : Token} (h : t.kind = .comment) (r : List Token) :
    ρ.tokens (t :: r) = if ρ.comments then ρ.token t :: ρ.tokens r else ρ.tokens r := by
  cases hρ : ρ.comments <;> simp [tokens, hρ, h]

theorem tokens_append (ts r : List Token) : ρ.tokens (ts ++ r) = ρ.tokens ts ++ ρ.tokens r := by
  rw [tokens, List.filter_append, List.map_append, tokens, tokens]

theorem ne_comment_of_tokens (hρ : ρ.comments = false) (ts : List Token) :
    kindAt (ρ.tokens ts) ≠ .comment := by
  induction ts with
  | nil => exact (by decide : Kind.fin ≠ .comment)
  | cons t r ih =>
    by_cases ht : t.kind = .comment
    · rwa [ρ.tokens_comment ht, hρ]
    · rw [ρ.tokens_cons ht, kindAt_cons, kind_token]
      exact ht

@[simp] theorem skip_tokens (ts : List Token) : skip (ρ.tokens ts) = ρ.tokens (skip ts) := by
  induction ts with
  | nil => rfl
  | cons t r ih =>
    by_cases ht : t.kind = .comment
    · rw [tokens_comment ρ ht,
        show skip (t :: r) = skip r from List.dropWhile_cons_of_pos (by simpa using ht), ← ih]
      split
      · exact List.dropWhile_cons_of_pos (by simpa using ht)
      · rfl
    · rw [skip_cons ht, tokens_cons ρ ht, skip_cons (by simpa using ht)]

theorem skip_cons {ts r : List Token} {t : Token} (h : skip ts = t :: r) :
    skip (ρ.tokens ts) = ρ.token t :: ρ.tokens r := by
  rw [skip_tokens, h, tokens_cons ρ (ne_comment_of_skip h)]

@[simp] theorem kindAt_tokens_skip (ts : List Token) :
    kindAt (ρ.tokens (skip ts)) = kindAt (skip ts) := by
  cases h : skip ts with
  | nil => rfl
  | cons t r => rw [tokens_cons ρ (ne_comment_of_skip h)]; exact ρ.kind_token t

@[simp] theorem tokens_skip_eq_nil {ts : List Token} : ρ.tokens (skip ts) = [] ↔ skip ts = [] := by
  cases h : skip ts with
  | nil => simp
  | cons t r => simp [tokens_cons ρ (ne_comment_of_skip h)]

@[simp] theorem complain_tokens_skip (fin : Position) (ts : List Token) (i : Issue) :
    complain (ρ.place fin) (ρ.tokens (skip ts)) i = (complain fin (skip ts) i).move ρ.place := by
  cases h : skip ts with
  | nil => rfl
  | cons t r =>
    rw [tokens_cons ρ (ne_comment_of_skip h)]
    exact congrArg (fun p => Event.issue ⟨p, i⟩) (ρ.pos_token t)

theorem leaveBlock_tokens (d : Nat) (ts : List Token) :
    leaveBlock d (ρ.tokens ts) = ρ.tokens (leaveBlock d ts) := by
  induction ts generalizing d with
  | nil => cases d <;> rfl
  | cons t r ih =>
    cases d with
    | zero => simp only [leaveBlock]
    | succ d =>
      by_cases ht : t.kind = .comment
      · rw [tokens_comment ρ ht]
        split <;> simp only [leaveBlock, kind_token, ht, ih]
      · rw [tokens_cons ρ ht]
        simp only [leaveBlock, kind_token]
        split <;> exact ih _

theorem recover_cons_brace {t : Token} (h : t.kind = .lbrace ∨ t.kind = .rbrace) (r : List Token) :
    recover (t :: r) = if t.kind = .lbrace then leaveBlock 1 r else t :: r := by
  rw [recover, List.dropWhile_cons_of_neg]
  rcases h with h | h <;> simp [h]

theorem recover_cons_other {t : Token} (h : ¬ (t.kind = .lbrace ∨ t.kind = .rbrace))
    (r : List Token) : recover (t :: r) = recover r := by
  rw [recover, List.dropWhile_cons_of_pos, recover]
  simpa using h

theorem recover_tokens (ts : List Token) : recover (ρ.tokens ts) = ρ.tokens (recover ts) := by
  induction ts with
  | nil => rfl
  | cons t r ih =>
    by_cases hb : t.kind = .lbrace ∨ t.kind = .rbrace
    · have ht : t.kind ≠ .comment := by rintro ht; simp [ht] at hb
      rw [tokens_cons ρ ht, recover_cons_brace (by simpa using hb), recover_cons_brace hb,
        apply_ite ρ.tokens, leaveBlock_tokens, tokens_cons ρ ht, kind_token]
    · rw [recover_cons_other hb, ← ih]
      by_cases ht : t.kind = .comment
      · rw [tokens_comment ρ ht]
        split
        · exact recover_cons_other (by simpa using hb) _
        · rfl
      · rw [tokens_cons ρ ht, recover_cons_other (by simpa using hb)]

@[simp] theorem events_abandon_tokens (fin : Position) (i : Issue) (ts : List Token) :
    (abandon (ρ.place fin) i (ρ.tokens ts)).events =
      (abandon fin i ts).events.map (Event.move ρ.place) := by
  simp only [abandon, skip_tokens, complain_tokens_skip, List.map_cons, List.map_nil]

@[simp] theorem rest_abandon_tokens (fin : Position) (i : Issue) (ts : List Token) :
    (abandon (ρ.place fin) i (ρ.tokens ts)).rest = ρ.tokens (abandon fin i ts).rest := by
  simp only [abandon, skip_tokens, recover_tokens]

theorem require_tokens (hk : k ≠ .fin) (fin : Position) (what : String) (ts : List Token) :
    Yields (require (ρ.place fin) k what (ρ.tokens ts))
    ((require fin k what ts).events.map (Event.move ρ.place))
      (ρ.tokens (require fin k what ts).rest) := by
  by_cases h : kindAt (skip ts) = k
  · obtain ⟨t, r, hs, ht⟩ := exists_of_kindAt h hk
    rw [require, take?_of_skip (ρ.skip_cons hs) ((ρ.kind_token t).trans ht), require,
      take?_of_skip hs ht]
    exact ⟨rfl, rfl⟩
  · have htold : kindAt (skip (ρ.tokens ts)) ≠ k := by rwa [skip_tokens, kindAt_tokens_skip]
    rw [require, (take?_eq_none_iff hk).2 htold, require, (take?_eq_none_iff hk).2 h]
    refine ⟨?_, ?_⟩
    · simp only [missing, skip_tokens, complain_tokens_skip, List.map_cons, List.map_nil]
    · simp only [missing, skip_tokens]

@[simp] theorem events_require_tokens (hk : k ≠ .fin) (fin : Position) (what : String)
    (ts : List Token) :
    (require (ρ.place fin) k what (ρ.tokens ts)).events =
      (require fin k what ts).events.map (Event.move ρ.place) :=
  (ρ.require_tokens hk fin what ts).events_eq

@[simp] theorem rest_require_tokens (hk : k ≠ .fin) (fin : Position) (what : String)
    (ts : List Token) :
    (require (ρ.place fin) k what (ρ.tokens ts)).rest = ρ.tokens (require fin k what ts).rest :=
  (ρ.require_tokens hk fin what ts).rest_eq

/-! ## What is asked of the tokens -/

/-- The number at the front, if one stands there, keeps its words. -/
def KeepsFront (ts : List Token) : Prop :=
  ∀ u ∈ ts.head?, u.kind = .number → ρ.token u = u.move ρ.place

/-- The numbers that are read out keep their words: those behind an opening parenthesis, which may
be conditions, and those behind an operator of a product, which may be divisors. Comments are left
out only where they are passed over. Behind a comparison or an assignment none is left out right
behind a name either: whether that name is the whole operand is told by the number of tokens up to
the next one. -/
def Suits : List Token → Prop
  | [] => True
  | t :: r => (t.kind ∈ .lparen :: operators 4 → ρ.KeepsFront (skip r)) ∧
      (ρ.comments = false → (kindAt r = .comment → Admits t.kind (kindAt (skip r))) ∧
        (t.kind ∈ operators 2 → kindAt r = .identifier → kindAt r.tail ≠ .comment)) ∧ Suits r

/-- No comment that is left out stands at the front. -/
def Clear (ts : List Token) : Prop := ρ.comments = false → kindAt ts ≠ .comment

/-- Comments at the front that are left out hide neither a sign nor a name. -/
def HidesNone (ts : List Token) : Prop :=
  ρ.comments = false → kindAt ts = .comment → kindAt (skip ts) ∉ .identifier :: signs

variable {ρ} {ts r : List Token} {t : Token}

theorem Suits.of_suffix (h : ρ.Suits ts) (hr : r <:+ ts) : ρ.Suits r := by
  obtain ⟨a, rfl⟩ := hr
  induction a with
  | nil => exact h
  | cons t a ih => exact ih h.2.2

theorem Suits.skip (h : ρ.Suits ts) : ρ.Suits (skip ts) := h.of_suffix (skip_suffix ts)

theorem Suits.front (h : ρ.Suits ts) (hs : Reader.skip ts = t :: r) :
    ρ.Suits (t :: r) := hs ▸ h.skip

theorem Suits.behind (h : ρ.Suits ts) (hs : Reader.skip ts = t :: r) : ρ.Suits r :=
  h.of_suffix (suffix_of_skip hs)

theorem Suits.rest (h : ρ.Suits ts) (hp : p.Parses fin ts e r) : ρ.Suits r :=
  h.of_suffix hp.suffix

theorem Suits.after (h : ρ.Suits ts) (hc : c.Parses fin ts e r) : ρ.Suits r :=
  h.of_suffix hc.suffix

theorem clear_skip (ts : List Token) : ρ.Clear (skip ts) := fun _ => kindAt_skip ts

theorem Clear.hidesNone (h : ρ.Clear ts) : ρ.HidesNone ts := fun hρ hc => absurd hc (h hρ)

theorem tokens_cons_of_clear (h : ρ.Clear (t :: r)) :
    ρ.tokens (t :: r) = ρ.token t :: ρ.tokens r := by
  by_cases ht : t.kind = .comment
  · rw [ρ.tokens_comment ht, if_pos]
    cases hρ : ρ.comments with
    | true => rfl
    | false => exact absurd ht (h hρ)
  · exact ρ.tokens_cons ht r

theorem kindAt_tokens (h : ρ.Clear ts) : kindAt (ρ.tokens ts) = kindAt ts := by
  cases ts with
  | nil => rfl
  | cons t r => rw [tokens_cons_of_clear h]; exact ρ.kind_token t

theorem complain_tokens (h : ρ.Clear ts) (fin : Position) (i : Issue) :
    complain (ρ.place fin) (ρ.tokens ts) i = (complain fin ts i).move ρ.place := by
  cases ts with
  | nil => rfl
  | cons t r =>
    rw [tokens_cons_of_clear h]
    exact congrArg (fun p => Event.issue ⟨p, i⟩) (ρ.pos_token t)

/-- Comments at the front that hide none of some kinds do not matter when one of these is asked
for. -/
theorem kindAt_tokens_iff {ks : List Kind}
    (h : ρ.comments = false → kindAt ts = .comment → kindAt (skip ts) ∉ ks) (hks : .comment ∉ ks)
    (hk : k ∈ ks) : kindAt (ρ.tokens ts) = k ↔ kindAt ts = k := by
  by_cases hclear : ρ.Clear ts
  · rw [kindAt_tokens hclear]
  · obtain ⟨hρ, hts⟩ : ρ.comments = false ∧ kindAt ts = .comment := by simpa [Clear] using hclear
    have hskip : ρ.tokens ts = ρ.tokens (skip ts) := by
      rw [← skip_tokens, skip_of_kindAt]
      exact ρ.ne_comment_of_tokens hρ ts
    rw [hskip, kindAt_tokens_skip]
    refine ⟨fun hskip => absurd hk (hskip ▸ h hρ hts), fun hkind => ?_⟩
    rw [← hkind, hts] at hk
    exact absurd hk hks

/-- The token behind a name is looked at where it stands. -/
theorem Suits.kindAt_behind_name (h : ρ.Suits (t :: r)) (ht : t.kind = .identifier)
    (hk : k ∈ .dot :: .lparen :: operators 2) : kindAt (ρ.tokens r) = k ↔ kindAt r = k :=
  kindAt_tokens_iff (fun hρ hr => ((h.2.1 hρ).1 hr).name ht) (by decide) hk

theorem Suits.hidesNone (h : ρ.Suits (op :: r))
    (hop : op.kind ∈ operators 0 ++ operators 1 ++ operators 2 ++ signs) : ρ.HidesNone r :=
  fun hρ hr => ((h.2.1 hρ).1 hr).operator hop

theorem HidesNone.kindAt_iff (h : ρ.HidesNone ts) (hk : k ∈ .identifier :: signs) :
    kindAt (ρ.tokens ts) = k ↔ kindAt ts = k :=
  kindAt_tokens_iff h (by decide) hk

theorem HidesNone.signs_iff (h : ρ.HidesNone ts) :
    kindAt (ρ.tokens ts) ∈ signs ↔ kindAt ts ∈ signs := by
  simp only [signs, List.mem_cons, List.not_mem_nil, or_false,
    h.kindAt_iff (k := .kwNot) (by decide), h.kindAt_iff (k := .minus) (by decide)]

theorem chainHead_of_kindAt (h : kindAt ts ≠ .identifier) : chainHead ts = (none, none) := by
  cases ts with
  | nil => rfl
  | cons t r => exact if_neg h

theorem chainHead_tokens (h : ρ.Suits ts) (hfront : ρ.HidesNone ts) :
    chainHead (ρ.tokens ts) = ((chainHead ts).1, (chainHead ts).2.map (Token.move ρ.place)) := by
  by_cases hts : kindAt ts = .identifier
  · obtain ⟨t, r, rfl, ht⟩ := exists_of_kindAt hts (by decide)
    rw [ρ.tokens_cons (by simp [ht]), ρ.token_of_kind ht (by decide)]
    simp only [chainHead, show (t.move ρ.place).kind = .identifier from ht, ht, if_true,
      h.kindAt_behind_name ht (k := .dot) (by decide)]
    rfl
  · rw [chainHead_of_kindAt hts, chainHead_of_kindAt]
    · rfl
    · rwa [Ne, hfront.kindAt_iff (by decide)]

theorem alone?_of_kindAt (h : kindAt ts ≠ .identifier) (r : List Token) : alone? ts r = none := by
  cases ts with
  | nil => rfl
  | cons t u => exact if_neg fun ht => h ht.2

/-- As many tokens are told as there are only if no comment is left out. -/
theorem length_tokens_append_iff (a : List Token) (hrest : ρ.Clear r)
    (hgap : ρ.comments = false → kindAt (a ++ r) = .comment → skip (a ++ r) ≠ r) :
    (ρ.tokens (a ++ r)).length = (ρ.tokens r).length ↔ (a ++ r).length = r.length := by
  rw [tokens_append, List.length_append, List.length_append, Nat.add_eq_right, Nat.add_eq_right,
    List.length_eq_zero_iff, List.length_eq_zero_iff]
  refine ⟨fun hnil => ?_, fun ha => by rw [ha]; rfl⟩
  cases a with
  | nil => rfl
  | cons c a =>
    -- nothing but comments up to `r`
    by_cases hc : ρ.Clear (c :: a)
    · rw [tokens_cons_of_clear hc] at hnil
      cases hnil
    · obtain ⟨hρ, hc⟩ : ρ.comments = false ∧ c.kind = .comment := by simpa [Clear] using hc
      have hskip : skip (c :: a) = [] := by rw [← ρ.tokens_skip_eq_nil, ← skip_tokens, hnil]; rfl
      have hnext : skip (c :: a ++ r) = r := by
        rw [skip, List.dropWhile_append, show (c :: a).dropWhile _ = [] from hskip]
        exact skip_of_kindAt (hrest hρ)
      exact absurd hnext (hgap hρ hc)

/-- A name is the only token up to `r`, comments or not, unless there is nothing but comments
between them. -/
theorem alone?_tokens (hr : r <:+ ts.tail) (hfront : ρ.HidesNone ts) (hrest : ρ.Clear r)
    (hgap : ρ.comments = false → kindAt ts = .identifier → kindAt ts.tail = .comment →
      skip ts.tail ≠ r) :
    alone? (ρ.tokens ts) (ρ.tokens r) = (alone? ts r).map (Token.move ρ.place) := by
  by_cases hts : kindAt ts = .identifier
  · obtain ⟨t, u, rfl, ht⟩ := exists_of_kindAt hts (by decide)
    obtain ⟨a, rfl⟩ := hr
    have hlength := length_tokens_append_iff a hrest fun hρ => hgap hρ ht
    rw [ρ.tokens_cons (by simp [ht]), ρ.token_of_kind ht (by decide)]
    simp only [alone?, hlength, Token.move, apply_ite (Option.map (Token.move ρ.place)),
      Option.map_some, Option.map_none]
  · rw [alone?_of_kindAt hts, alone?_of_kindAt]
    · rfl
    · rwa [Ne, hfront.kindAt_iff (by decide)]

theorem assignmentTarget_of_kindAt (h : kindAt ts = .identifier → kindAt ts.tail ≠ .assign) :
    assignmentTarget ts = [] := by
  match ts with
  | [] | [_] => rfl
  | t :: s :: r => exact if_neg fun hts => h hts.1 hts.2

theorem assignmentTarget_self_of_kindAt {s : Token} {w : List Token} (ht : t.kind = .identifier)
    (hs : s.kind = .assign) (h : kindAt w = .identifier → kindAt w.tail ≠ .semicolon) :
    assignmentTarget (t :: s :: w) = [.assigned t] := by
  match w with
  | [] | [_] => exact if_pos ⟨ht, hs⟩
  | u :: v :: x =>
    exact (if_pos ⟨ht, hs⟩).trans (congrArg (List.cons _) (if_neg fun huv => h huv.1 huv.2.2))

theorem assignmentTarget_tokens (h : ρ.Suits ts) (hfront : ρ.Clear ts) :
    assignmentTarget (ρ.tokens ts) = (assignmentTarget ts).map (Event.move ρ.place) := by
  by_cases hts : kindAt ts = .identifier ∧ kindAt ts.tail = .assign
  · obtain ⟨t, r, rfl, ht⟩ := exists_of_kindAt hts.1 (by decide)
    obtain ⟨s, w, rfl, hs⟩ := exists_of_kindAt (show kindAt r = .assign from hts.2) (by decide)
    rw [ρ.tokens_cons (by simp [ht]), ρ.tokens_cons (by simp [hs]), ρ.token_of_kind ht (by decide)]
    have hw : ρ.HidesNone w := h.2.2.hidesNone (by rw [hs]; decide)
    by_cases hself : kindAt w = .identifier
    · -- the token behind the name is no comment here, so the two after the sign are the same
      obtain ⟨u, x, rfl, hu⟩ := exists_of_kindAt hself (by decide)
      have hx : ρ.Clear x := fun hρ => (h.2.2.2.1 hρ).2 (by rw [hs]; decide) hu
      rw [ρ.tokens_cons (by simp [hu]), ρ.token_of_kind hu (by decide)]
      cases x with
      | nil => simp [assignmentTarget, ht, hs, Token.move, Event.move]
      | cons v x =>
        rw [tokens_cons_of_clear hx]
        simp only [assignmentTarget, kind_token,
          show (t.move ρ.place).kind = .identifier from ht, ht, hs, hu, show (u.move ρ.place).kind =
            .identifier from hu, true_and, and_self, if_true, List.map_cons,
          apply_ite (List.map (Event.move ρ.place)), List.map_nil]
        rfl
    · rw [assignmentTarget_self_of_kindAt ht hs fun hk => absurd hk hself,
        assignmentTarget_self_of_kindAt (t := t.move ρ.place) ht (by simpa using hs)]
      · rfl
      · rw [hw.kindAt_iff (by decide)]
        exact fun hk => absurd hk hself
  · rw [assignmentTarget_of_kindAt fun hk ha => hts ⟨hk, ha⟩, assignmentTarget_of_kindAt]
    · rfl
    rw [kindAt_tokens hfront]
    intro hk
    obtain ⟨t, r, rfl, ht⟩ := exists_of_kindAt hk (by decide)
    rw [tokens_cons_of_clear hfront, List.tail_cons, Ne, h.kindAt_behind_name ht (by decide)]
    exact fun ha => hts ⟨hk, ha⟩

/-- The token at the front that is read out is told in the same words. -/
theorem KeepsFront.token_eq (h : ρ.KeepsFront (skip ts)) (hs : skip ts = t :: r) :
    ρ.token t = t.move ρ.place := by
  by_cases hn : t.kind = .number
  · exact h t (by rw [hs]; rfl) hn
  · exact ρ.token_eq (by simp [hn, ne_comment_of_skip hs])

theorem constantCondition_tokens (h : ρ.KeepsFront (skip ts)) :
    constantCondition (ρ.tokens (skip ts)) =
      (constantCondition (skip ts)).map (Event.move ρ.place) := by
  cases hs : skip ts with
  | nil => rfl
  | cons t r =>
    rw [ρ.tokens_cons (ne_comment_of_skip hs), h.token_eq hs]
    simp only [constantCondition, Token.move]
    split
    · rfl
    · rfl
    · rw [apply_ite (List.map (Event.move ρ.place))]
      rfl
    · rfl

theorem zeroDivisor_tokens (op : Token) (h : ρ.KeepsFront (skip ts)) :
    zeroDivisor (op.move ρ.place)
    (ρ.tokens (skip ts)) = (zeroDivisor op (skip ts)).map (Event.move ρ.place) := by
  cases hs : skip ts with
  | nil => rfl
  | cons t r =>
    rw [ρ.tokens_cons (ne_comment_of_skip hs), h.token_eq hs]
    simp only [zeroDivisor, Token.move, apply_ite (List.map (Event.move ρ.place))]
    congr 1
    split <;> rfl

section Move

variable (σ : Position → Position)

theorem comparedToSelf_move (op : Token) (lhs rhs : Option Token) :
    comparedToSelf (op.move σ) (lhs.map (Token.move σ)) (rhs.map (Token.move σ)) =
      (comparedToSelf op lhs rhs).map (Event.move σ) := by
  cases lhs with
  | none => rfl
  | some a =>
    cases rhs with
    | none => rfl
    | some b =>
      simp only [Option.map_some, comparedToSelf, Token.move, apply_ite (List.map (Event.move σ))]
      rfl

@[simp] theorem callOf_move (receiver : Option String) (last : Option Token) (n : Nat) :
    callOf receiver (last.map (Token.move σ)) n = (callOf receiver last n).map (Event.move σ) := by
  cases last <;> rfl

@[simp] theorem accessOf_move (receiver : Option String) (name : Token) :
    accessOf receiver (name.move σ) = (accessOf receiver name).map (Event.move σ) := by
  cases receiver <;> rfl

end Move

/-! ## Expressions -/

/-- No comment that is left out stands at the front of what a part leaves. A single operand and a
call leave off right behind their last token. -/
def Settled (ρ : Retelling) (ts r : List Token) : Phrase → Prop
  | .operand _ | .arguments _ _ | .moreArguments _ _ _ => True
  | .tail _ _ _ => ρ.Clear ts → ρ.Clear r
  | _ => ρ.Clear r

theorem settled_of_parses (h : p.Parses fin ts e r) (hts : ρ.Suits ts) : ρ.Settled ts r p := by
  induction h with
  | noExpression _ | operation _ _ _ | noValue _ _ _ _ _ | noLink _ | noMember _ _ _ =>
    exact clear_skip _
  | expression _ _ ih => exact ih hts.skip
  | reassignment h hs _ _ _ _ ih' => exact ih' ((hts.rest h).behind hs).skip
  | level _ h _ ih ih' => exact ih' (hts.rest h) (ih hts)
  | sign _ _ _ ih => exact ih hts.2.2
  | unsigned _ _ _ ih => exact ih hts
  | noOperator _ => exact id
  | noOperand _ _ _ => exact fun _ => clear_skip _
  | @operator s n lhs op r u out e e' _ _ h _ ih ih' =>
    have hoperand := hts.2.2.of_suffix (operandOf_suffix n r)
    exact fun _ => ih' (hoperand.rest h) (ih hoperand)
  | chain h _ _ ih' => exact ih' (hts.rest h)
  | method hs _ hs' _ _ _ ih | member hs _ hs' _ _ _ ih =>
    exact ih ((hts.behind hs).behind hs').skip
  | call hs _ h _ _ ih' => exact ih' ((hts.behind hs).rest h)
  | index hs _ h _ _ ih' =>
    exact ih' (((hts.behind hs).rest h).of_suffix (rest_require_suffix _ _ _ _))
  | noProperty hs ht _ =>
    -- what stands behind the colon is left as it is
    exact fun hρ hr => (((hts.front hs).2.1 hρ).1 hr).property ht
  | property hs _ _ _ ih => exact ih (hts.behind hs).2.2
  | nothing _ | literal _ _ | name _ _ | group _ _ _ _ | unexpected _ _ | noArgument _
  | firstArgument _ _ _ _ _
  | lastArgument _ | lastComma _ _ | nextArgument _ _ _ _ _ _ => trivial

/-- What a part relies on where it starts. -/
def Allows (ρ : Retelling) (ts : List Token) : Phrase → Prop
  | .operation _ | .tail _ _ _ | .moreArguments _ _ _ => ρ.Clear ts
  | .level _ _ | .chain _ => ρ.HidesNone ts
  | _ => True

/-- The part tells the same about the tokens that are told. The operand on the left counts only
where it is compared. -/
def Retells (ρ : Retelling) (fin : Position) (ts : List Token) (e : List Event) (r : List Token) :
    Phrase → Prop
  | .tail s n lhs =>
    ∀ lhs', (n = 2 → kindAt ts ∈ operators 2 → lhs' = lhs.map (Token.move ρ.place)) →
      (Phrase.tail s n lhs').Parses (ρ.place fin) (ρ.tokens ts)
        (e.map (Event.move ρ.place)) (ρ.tokens r)
  | p =>
    (p.move ρ.place).Parses (ρ.place fin) (ρ.tokens ts) (e.map (Event.move ρ.place)) (ρ.tokens r)

@[simp] theorem operandOf_tokens (ρ : Retelling) (n : Nat) (r : List Token) :
    operandOf n (ρ.tokens r) = ρ.tokens (operandOf n r) := by
  rw [operandOf, operandOf, skip_tokens, apply_ite ρ.tokens]

theorem targetOf_tokens (s : Bool) (h : ρ.Suits ts) (hfront : ρ.Clear ts) :
    targetOf s (ρ.tokens ts) = (targetOf s ts).map (Event.move ρ.place) := by
  cases s with
  | true => exact assignmentTarget_tokens h hfront
  | false => rfl

theorem plain_of_mem_operators (h : k ∈ operators n) : k ∉ [.comment, .number] := by
  intro hk
  simp only [List.mem_cons, List.not_mem_nil, or_false, ne_comment_of_mem_operators h, false_or]
    at hk
  subst hk
  match n with
  | 0 | 1 | 2 | 3 | 4 | _ + 5 => simp [operators] at h

/-- The divisor of a product keeps its words. -/
theorem remarkBefore_tokens (h : ρ.Suits (op :: r)) (hop : op.kind ∈ operators n) :
    remarkBefore n (op.move ρ.place) (ρ.tokens (operandOf n r)) =
      (remarkBefore n op (operandOf n r)).map (Event.move ρ.place) := by
  unfold remarkBefore
  split
  · next hn =>
    subst hn
    exact zeroDivisor_tokens op (h.1 (List.mem_cons_of_mem _ hop))
  · rfl

/-- The operand behind an operator starts with no comment that hides a sign or a name. -/
theorem Suits.hidesNone_operandOf (h : ρ.Suits (op :: r)) (hop : op.kind ∈ operators n) :
    ρ.HidesNone (operandOf n r) := by
  rw [operandOf]
  split
  · exact (clear_skip r).hidesNone
  · next hn =>
    refine h.hidesNone ?_
    obtain rfl | rfl | rfl : n = 0 ∨ n = 1 ∨ n = 2 := by omega
    · simp [hop]
    · simp [hop]
    · simp [hop]

/-- What is read as the operand of a level is a name without comments if it is one with them, where
that counts. -/
theorem alone?_of_parses {s : Bool} (h : (Phrase.level s n).Parses fin ts e r) (hts : ρ.Suits ts)
    (hfront : ρ.HidesNone ts)
    (hgap : ρ.comments = false → kindAt ts = .identifier → kindAt ts.tail = .comment →
      kindAt r ∈ operators 2) :
    alone? (ρ.tokens ts) (ρ.tokens r) = (alone? ts r).map (Token.move ρ.place) := by
  have htail : r <:+ ts.tail := by
    have hsuffix := h.suffix
    have hlength : r.length ≤ ts.length - 1 := h.length_le
    cases ts with
    | nil => exact hsuffix
    | cons t u =>
      refine (List.suffix_cons_iff.1 hsuffix).resolve_left fun hr => ?_
      rw [hr, List.length_cons] at hlength
      omega
  refine alone?_tokens htail hfront (settled_of_parses h hts) fun hρ hname hcomment hskip => ?_
  obtain ⟨t, u, rfl, ht⟩ := exists_of_kindAt hname (by decide)
  have hadmits := ((hts.2.1 hρ).1 hcomment).name ht
  rw [show Reader.skip u = r from hskip] at hadmits
  exact hadmits (List.mem_cons_of_mem _ (List.mem_cons_of_mem _ (hgap hρ hname hcomment)))

/-- What is told of an operator when its operand has been read: both operands of a comparison are
the same. -/
theorem remarkAfter_tokens {s : Bool} {u : List Token} {lhs lhs' : Option Token}
    (hts : ρ.Suits (op :: r)) (hop : op.kind ∈ operators n)
    (h : (Phrase.level s (n + 1)).Parses fin (operandOf n r) e u)
    (hlhs : n = 2 → lhs' = lhs.map (Token.move ρ.place)) :
    remarkAfter n (op.move ρ.place) lhs' (alone? (ρ.tokens (operandOf n r)) (ρ.tokens u)) =
      (remarkAfter n op lhs (alone? (operandOf n r) u)).map (Event.move ρ.place) := by
  rw [remarkAfter, remarkAfter]
  split
  · next hn =>
    subst hn
    have hright :=
      alone?_of_parses h (hts.2.2.of_suffix (operandOf_suffix 2 r)) (hts.hidesNone_operandOf hop)
      fun hρ hname hcomment => absurd hcomment ((hts.2.1 hρ).2 hop hname)
    rw [hlhs rfl, hright, comparedToSelf_move]
  · rfl

/-- Expressions go along with a retelling. -/
theorem retells_of_parses (h : p.Parses fin ts e r) (hts : ρ.Suits ts) (hfront : ρ.Allows ts p) :
    ρ.Retells fin ts e r p := by
  induction h with
  | noExpression hend => exact .congr (.noExpression (by simpa using hend)) (by simp) (by simp)
  | expression hend _ ih =>
    exact .expression (by simpa using hend) (by simpa [Retells] using ih hts.skip (clear_skip _))
  | operation h hassign ih =>
    simpa [Retells, targetOf_tokens _ hts hfront] using
      Phrase.Parses.operation (ih hts hfront.hidesNone) (by simpa using hassign)
  | noValue h hs ha hend ih =>
    simpa [Retells, targetOf_tokens _ hts hfront] using
      Phrase.Parses.noValue (ih hts hfront.hidesNone) (ρ.skip_cons hs) (by simpa using ha)
        (by simpa using hend)
  | reassignment h hs ha hend _ ih ih' =>
    have hvalue := ih' ((hts.rest h).behind hs).skip (clear_skip _)
    simpa [Retells, targetOf_tokens _ hts hfront] using
      Phrase.Parses.reassignment (ih hts hfront.hidesNone) (ρ.skip_cons hs) (by simpa using ha)
        (by simpa using hend)
        (by simpa [Retells] using hvalue)
  | level hn h _ ih ih' =>
    have htail :=
      ih' (hts.rest h) (settled_of_parses h hts) _ fun _ hop =>
        alone?_of_parses h hts hfront fun _ _ _ => hop
    simpa [Retells] using Phrase.Parses.level hn (ih hts hfront) htail
  | sign hn ht _ ih =>
    have hsign : ρ.HidesNone _ := hts.hidesNone (List.mem_append_right _ ht)
    change Phrase.Parses _ _ (ρ.tokens (_ :: _)) _ _
    rw [ρ.tokens_cons (by rintro hc; rw [hc] at ht; exact absurd ht (by decide))]
    exact .sign hn (by simpa using ht) (ih hts.2.2 hsign)
  | unsigned hn ht _ ih => exact .unsigned hn (by rwa [HidesNone.signs_iff hfront]) (ih hts hfront)
  | noOperator hop => exact fun lhs' _ => .noOperator (by rwa [kindAt_tokens hfront])
  | @noOperand s n lhs op r hop hn hend =>
    intro lhs' _
    rw [tokens_cons_of_clear hfront]
    exact .congr (.noOperand (by simpa using hop) hn (by simpa using hend)) (by simp) (by simp)
  | @operator s n lhs op r u out e e' hop hend h _ ih ih' =>
    intro lhs' hlhs
    have hoperand := hts.2.2.of_suffix (operandOf_suffix n r)
    have hnone := hts.hidesNone_operandOf hop
    have htail := ih' (hoperand.rest h) (settled_of_parses h hoperand) _ fun _ hcompared =>
      alone?_of_parses h hoperand hnone fun _ _ _ => hcompared
    have hrule : (Phrase.tail s n lhs').Parses (ρ.place fin) (ρ.token op :: ρ.tokens r) _ _ :=
      .operator (by simpa using hop) (by simpa using hend)
        (by simpa [Retells] using ih hoperand hnone) (by simpa using htail)
    rw [operandOf_tokens, ρ.token_eq (plain_of_mem_operators hop), remarkBefore_tokens hts hop,
      remarkAfter_tokens hts hop h fun hn => hlhs hn (hn ▸ hop),
      ← ρ.token_eq (plain_of_mem_operators hop)] at hrule
    rw [tokens_cons_of_clear hfront]
    simpa using hrule
  | chain h _ ih ih' =>
    have hlinks := ih' (hts.rest h) trivial
    simpa [Retells, chainHead_tokens hts hfront] using
      Phrase.Parses.chain (ih hts trivial)
        (by simpa [Retells, chainHead_tokens hts hfront] using hlinks)
  | nothing hs => exact .nothing (by simpa using hs)
  | literal hs ht => exact .literal (ρ.skip_cons hs) (by simpa using ht)
  | @name s ts r t hs ht =>
    have hname := hts.front hs
    have hqualified : (kindAt (ρ.tokens r) == .lparen || kindAt (ρ.tokens r) == .dot) =
        (kindAt r == .lparen || kindAt r == .dot) := by
      rw [Bool.eq_iff_iff]
      simp only [Bool.or_eq_true, beq_iff_eq,
        hname.kindAt_behind_name ht (k := .lparen) (by decide),
        hname.kindAt_behind_name ht (k := .dot) (by decide)]
    exact .congr (.name (ρ.skip_cons hs) (by simpa using ht))
      (by rw [hqualified, ρ.token_of_kind ht (by decide)]; rfl) rfl
  | group hs ht _ ih =>
    simpa [Retells, closeGroup] using
      Phrase.Parses.group (ρ.skip_cons hs) (by simpa using ht) (ih (hts.behind hs) trivial)
  | @unexpected s ts r t hs ht =>
    have hplain : t.kind ∉ [.comment, .number] := by
      intro hk
      simp only [List.mem_cons, List.not_mem_nil, or_false, ne_comment_of_skip hs, false_or] at hk
      exact ht (hk ▸ by decide)
    exact .congr (.unexpected (ρ.skip_cons hs) (by simpa using ht))
      (by rw [ρ.token_eq hplain]; rfl) rfl
  | noLink hk => exact .congr (.noLink (by simpa using hk)) (by simp) (by simp)
  | noMember hs ht hk =>
    exact .congr (.noMember (ρ.skip_cons hs) (by simpa using ht) (by simpa using hk))
      (by simp) (by simp)
  | method hs ht hs' hu hk _ ih =>
    have hlinks := ih ((hts.behind hs).behind hs').skip trivial
    exact .method (ρ.skip_cons hs) (by simpa using ht) (ρ.skip_cons hs') (by simpa using hu)
      (by simpa using hk)
      (by simpa [Retells, ρ.token_of_kind hu (by decide)] using hlinks)
  | member hs ht hs' hu hk _ ih =>
    have hlinks := ih ((hts.behind hs).behind hs').skip trivial
    exact .congr (.member (ρ.skip_cons hs) (by simpa using ht) (ρ.skip_cons hs') (by simpa using hu)
      (by simpa using hk) (by simpa [Retells, ρ.token_of_kind hu (by decide)] using hlinks))
      (by simp [ρ.token_of_kind hu (by decide)]) rfl
  | call hs ht h _ ih ih' =>
    exact .congr (.call (ρ.skip_cons hs) (by simpa using ht) (ih (hts.behind hs) trivial)
      (ih' ((hts.behind hs).rest h) trivial)) (by simp) rfl
  | index hs ht h _ ih ih' =>
    have hlinks := ih' (((hts.behind hs).rest h).of_suffix (rest_require_suffix _ _ _ _)) trivial
    simpa [Retells, closeIndex]
      using Phrase.Parses.index (ρ.skip_cons hs) (by simpa using ht) (ih (hts.behind hs) trivial)
      (by simpa [Retells, closeIndex] using hlinks)
  | noProperty hs ht hk =>
    have hcolon : ρ.Clear _ := fun hρ hr => (((hts.front hs).2.1 hρ).1 hr).property ht
    exact .congr (.noProperty (ρ.skip_cons hs) (by simpa using ht) (by rwa [kindAt_tokens hcolon]))
      (by simp [complain_tokens hcolon]) rfl
  | property hs ht hu _ ih =>
    have hs' := ρ.skip_cons hs
    rw [ρ.tokens_cons (by simp [hu])] at hs'
    exact .property hs' (by simpa using ht) (by simpa using hu) (ih (hts.behind hs).2.2 trivial)
  | noArgument hk =>
    exact .congr (.noArgument (by simpa using hk)) (by rw [skip_tokens]; simp [closeCall])
      (by rw [skip_tokens]; simp [closeCall])
  | firstArgument hk h _ ih ih' =>
    have hmore := ih' (hts.skip.rest h) (settled_of_parses h hts.skip)
    simpa [Retells] using
      Phrase.Parses.firstArgument (by simpa using hk)
        (by simpa [Retells] using ih hts.skip trivial) hmore
  | lastArgument hk =>
    exact .congr (.lastArgument (by rwa [kindAt_tokens hfront])) (by simp [closeCall])
      (by simp [closeCall])
  | lastComma hc hk =>
    change Phrase.Parses _ _ (ρ.tokens (_ :: _)) _ _
    rw [tokens_cons_of_clear hfront]
    exact .congr (.lastComma (by simpa using hc) (by simpa using hk))
      (by rw [skip_tokens]; simp [closeCall]) (by rw [skip_tokens]; simp [closeCall])
  | nextArgument hc hk h _ ih ih' =>
    have hargument := ih hts.2.2.skip trivial
    have hmore := ih' (hts.2.2.skip.rest h) (settled_of_parses h hts.2.2.skip)
    change Phrase.Parses _ _ (ρ.tokens (_ :: _)) _ _
    rw [tokens_cons_of_clear hfront]
    simpa using Phrase.Parses.nextArgument (by simpa using hc) (by simpa using hk)
      (by simpa [Retells] using hargument) hmore

/-! ## Statements -/

/-- What a part relies on where it starts: statements in a block are read up to a closing brace that
stands at the front. -/
def Admissible (ρ : Retelling) (ts : List Token) : Clause → Prop
  | .statements | .block => ρ.comments = false → kindAt ts = .comment → kindAt (skip ts) ≠ .rbrace
  | _ => True

theorem Suits.admissible_block (h : ρ.Suits (t :: r)) (ht : t.kind = .lbrace) :
    ρ.Admissible r .block :=
  fun hρ hr => ((h.2.1 hρ).1 hr).block ht

theorem Suits.admissible_headed (h : ρ.Suits (t :: r)) (hc : headed t.kind = some c) :
    ρ.Admissible r c := by
  obtain ⟨kind, text, pos⟩ := t
  cases kind <;> simp only [headed, Option.some.injEq, reduceCtorEq] at hc <;> subst hc
  case lbrace => exact h.admissible_block rfl
  all_goals trivial

theorem Suits.condition (h : ρ.Suits ts) (hs : Reader.skip ts = t :: r) (ht : t.kind = .lparen) :
    constantCondition (ρ.tokens (Reader.skip r)) =
      (constantCondition (Reader.skip r)).map (Event.move ρ.place) :=
  constantCondition_tokens ((h.front hs).1 (ht ▸ List.mem_cons_self))

theorem Suits.expression (hts : ρ.Suits ts) (h : Phrase.Parses fin (.expression false) ts e r) :
    Phrase.Parses (ρ.place fin) (.expression false) (ρ.tokens ts)
    (e.map (Event.move ρ.place)) (ρ.tokens r) :=
  retells_of_parses h hts trivial

/-- Where nothing but comments is left, nothing is read and nothing told. -/
theorem parses_of_skip_nil {ts r : List Token} (h : Clause.statement.Parses fin ts e r)
    (hs : skip ts = []) : e = [] ∧ r = [] := by
  cases h with
  | noStatement _ => exact ⟨rfl, rfl⟩
  | _ h => cases hs.symm.trans h

/-- Statements end where they did. -/
theorem ends_tokens {ts : List Token} (h : kindAt ts = .rbrace ∨ ts = []) :
    kindAt (ρ.tokens ts) = .rbrace ∨ ρ.tokens ts = [] := by
  rcases h with h | rfl
  · obtain ⟨t, r, rfl, ht⟩ := exists_of_kindAt h (by decide)
    rw [ρ.tokens_cons (by rw [ht]; decide)]
    exact .inl ((ρ.kind_token t).trans ht)
  · exact .inr rfl

/-- A closing brace that only comments hide is not met at the front of statements. -/
theorem not_ends_tokens {ts : List Token} (hs : skip ts ≠ []) (hfront : ρ.Admissible ts .statements)
    (h : ¬ (kindAt ts = .rbrace ∨ ts = [])) :
    ¬ (kindAt (ρ.tokens ts) = .rbrace ∨ ρ.tokens ts = []) := by
  rintro (hbrace | hnil)
  · have hskip : kindAt (skip ts) = .rbrace := by
      rw [← ρ.kindAt_tokens_skip, ← skip_tokens, skip_of_kindAt (by rw [hbrace]; decide), hbrace]
    by_cases hc : kindAt ts = .comment
    · cases hcomments : ρ.comments with
      | false => exact hfront hcomments hc hskip
      | true =>
        obtain ⟨t, r, rfl, ht⟩ := exists_of_kindAt hc (by decide)
        rw [ρ.tokens_comment ht, if_pos hcomments, kindAt_cons, kind_token, ht] at hbrace
        cases hbrace
    · exact h (.inl (by rwa [skip_of_kindAt hc] at hskip))
  · refine hs (ρ.tokens_skip_eq_nil.1 ?_)
    rw [← skip_tokens, hnil]
    rfl

/-- Comments up to the end of the text are no statements, told or not. -/
theorem parses_nothing (fin : Position) {ts : List Token} (hs : skip ts = []) :
    Clause.statements.Parses fin ts [] [] := by
  by_cases h : ts = []
  · subst h
    exact .noMore (.inr rfl)
  · refine .more ?_ (.noStatement hs) (.noMore (.inr rfl))
    rintro (hbrace | hnil)
    · rw [skip_of_kindAt (by rw [hbrace]; decide)] at hs
      exact h hs
    · exact h hnil

/-- Statements go along with a retelling. -/
theorem parses_tokens (h : c.Parses fin ts e r) (hts : ρ.Suits ts) (hfront : ρ.Admissible ts c) :
    c.Parses (ρ.place fin) (ρ.tokens ts) (e.map (Event.move ρ.place)) (ρ.tokens r) := by
  induction h with
  | returnNothing hk =>
    exact .congr (.returnNothing (by simpa using hk))
      (by rw [skip_tokens]; simp [closeReturn, Event.move])
        (by rw [skip_tokens]; simp [closeReturn])
  | returnValue hk h =>
    exact .congr (.returnValue (by simpa using hk) (by simpa using hts.skip.expression h))
      (by simp [closeReturn, Event.move]) (by simp [closeReturn])
  | ended hk => exact .congr (.ended (by simpa using hk)) (by simp) (by simp)
  | noSemicolon hs ht =>
    exact .congr (.noSemicolon (ρ.skip_cons hs) (by simpa using ht))
      (by simp [Event.move, Diagnostic.move]) (ρ.tokens_cons (ne_comment_of_skip hs) _).symm
  | semicolon hs ht => exact .semicolon (ρ.skip_cons hs) (by simpa using ht)
  | noStatement hs => exact .noStatement (by simpa using hs)
  | stray hs ht =>
    exact .congr (.stray (ρ.skip_cons hs) (by simpa using ht))
      (by simp [Event.move, Diagnostic.move]) rfl
  | empty hs ht =>
    exact .congr (.empty (ρ.skip_cons hs) (by simpa using ht))
      (by simp [Event.move, Diagnostic.move]) rfl
  | headed hs hc _ ih =>
    have hhead := (hts.front hs).admissible_headed hc
    simpa [Event.move]
      using Clause.Parses.headed (ρ.skip_cons hs) (by simpa using hc) (ih (hts.behind hs) hhead)
  | noSimple hs ht =>
    exact .congr (.noSimple (ρ.skip_cons hs) (by simpa using ht))
      (by simp [Event.move, Diagnostic.move]) rfl
  | simple hs hhead hend h _ ih =>
    have hstatement := hts.front hs
    have hexpression : Phrase.Parses (ρ.place fin) (.operation true) (ρ.tokens (_ :: _)) _ _ :=
      retells_of_parses h hstatement fun _ => ne_comment_of_skip hs
    rw [ρ.tokens_cons (ne_comment_of_skip hs)] at hexpression
    simpa [Event.move] using Clause.Parses.simple (ρ.skip_cons hs) (by simpa using hhead)
      (by simpa using hend) hexpression
      (ih (hstatement.rest h) trivial)
  | noMore hk => exact .noMore (ends_tokens hk)
  | @more ts r out e e' hk h hmore ih ih' =>
    by_cases hs : Reader.skip ts = []
    · obtain ⟨rfl, rfl⟩ := parses_of_skip_nil h hs
      cases hmore with
      | noMore _ => exact parses_nothing _ (by simpa using hs)
      | more hk _ _ => exact absurd (.inr rfl) hk
    · have hrest := ih' ((hts.after h).skip) fun _ hc => absurd hc (kindAt_skip r)
      simpa using Clause.Parses.more (not_ends_tokens hs hfront hk) (ih hts trivial)
        (by simpa using hrest)
  | block _ ih => simpa [closeBlock, Event.move] using Clause.Parses.block (ih hts hfront)
  | noBlock hk => exact .congr (.noBlock (by simpa using hk)) (by simp) (by simp)
  | ownedBlock hs ht _ ih =>
    exact .ownedBlock (ρ.skip_cons hs) (by simpa using ht)
      (ih (hts.behind hs) ((hts.front hs).admissible_block ht))
  | unopened hk => exact .congr (.unopened (by simpa using hk)) (by simp) (by simp)
  | unclosed hs ht h hk =>
    exact .congr
      (.unclosed (ρ.skip_cons hs) (by simpa using ht) ((hts.behind hs).expression h)
        (by simpa using hk))
      (by simp) (by simp)
  | guarded hs ht h hs' hq _ ih =>
    exact .congr (.guarded (ρ.skip_cons hs) (by simpa using ht) ((hts.behind hs).expression h)
        (ρ.skip_cons hs') (by simpa using hq) (ih (((hts.behind hs).rest h).behind hs') trivial))
      (by simp) (by simp)
  | unopenedIf hk => exact .congr (.unopenedIf (by simpa using hk)) (by simp) (by simp)
  | unclosedIf hs ht h hk =>
    simpa [hts.condition hs ht] using Clause.Parses.unclosedIf (ρ.skip_cons hs) (by simpa using ht)
      ((hts.behind hs).expression h) (by simpa using hk)
  | blocklessIf hs ht h hs' hq hk _ ih =>
    simpa [hts.condition hs ht] using Clause.Parses.blocklessIf (ρ.skip_cons hs) (by simpa using ht)
      ((hts.behind hs).expression h) (ρ.skip_cons hs') (by simpa using hq) (by simpa using hk)
      (ih (((hts.behind hs).rest h).behind hs') trivial)
  | conditional hs ht h hs' hq hk hblock _ ih ih' =>
    have hbody := ((hts.behind hs).rest h).behind hs'
    simpa [hts.condition hs ht] using Clause.Parses.conditional (ρ.skip_cons hs) (by simpa using ht)
      ((hts.behind hs).expression h) (ρ.skip_cons hs') (by simpa using hq) (by simpa using hk)
      (ih hbody trivial) (ih' (hbody.after hblock) trivial)
  | noElse hk => exact .congr (.noElse (by simpa using hk)) (by simp) (by simp)
  | otherwise hs ht hk _ ih =>
    exact .otherwise (ρ.skip_cons hs) (by simpa using ht) (by simpa using hk)
      (ih (hts.behind hs) trivial)
  | otherwiseIf hs ht hs' hq _ ih =>
    exact .otherwiseIf (ρ.skip_cons hs) (by simpa using ht) (ρ.skip_cons hs') (by simpa using hq)
      (ih ((hts.behind hs).behind hs') trivial)
  | noLoop hk =>
    exact .congr (.noLoop (by simpa using hk)) (by rw [skip_tokens]; simp)
      (by rw [skip_tokens]; simp)
  | eachLoop hs ht _ ih =>
    exact .eachLoop (ρ.skip_cons hs) (by simpa using ht) (ih (hts.behind hs) trivial)
  | countedLoop hs ht _ ih =>
    simpa [ρ.text_token ht, Event.move] using
      Clause.Parses.countedLoop (ρ.skip_cons hs) (by simpa using ht) (ih (hts.behind hs) trivial)
  | noStart hk => exact .congr (.noStart (by simpa using hk)) (by simp) (by simp)
  | noBound hs ht h hk =>
    simpa using Clause.Parses.noBound (ρ.skip_cons hs) (by simpa using ht)
      ((hts.behind hs).expression h)
      (by simpa using hk)
  | counted hs ht h hs' hq h' _ ih =>
    have hbound := ((hts.behind hs).rest h).behind hs'
    simpa using Clause.Parses.counted (ρ.skip_cons hs) (by simpa using ht)
      ((hts.behind hs).expression h)
      (ρ.skip_cons hs') (by simpa using hq) (hbound.expression h') (ih (hbound.rest h') trivial)
  | noVariable hk => exact .congr (.noVariable (by simpa using hk)) (by simp) (by simp)
  | noIn hs ht hk =>
    exact .congr (.noIn (ρ.skip_cons hs) (by simpa using ht) (by simpa using hk))
      (by simp) (by simp)
  | typed hs ht hr hu _ ih =>
    simpa [ρ.text_token hu, Event.move]
      using Clause.Parses.typed (ρ.skip_cons hs) (by simpa using ht)
      (ρ.skip_cons hr) (by simpa using hu) (ih ((hts.behind hs).behind hr) trivial)
  | untyped hs ht hk _ ih =>
    simpa [ρ.text_token ht, Event.move]
      using Clause.Parses.untyped (ρ.skip_cons hs) (by simpa using ht)
      (by simpa using hk) (by simpa using ih ((hts.behind hs).skip) trivial)
  | noCollection hk => exact .congr (.noCollection (by simpa using hk)) (by simp) (by simp)
  | collection hs ht h _ ih =>
    simpa using Clause.Parses.collection (ρ.skip_cons hs) (by simpa using ht)
      ((hts.behind hs).expression h)
      (ih ((hts.behind hs).rest h) trivial)
  | unopenedSwitch hk => exact .congr (.unopenedSwitch (by simpa using hk)) (by simp) (by simp)
  | unclosedSwitch hs ht h hk =>
    simpa using Clause.Parses.unclosedSwitch (ρ.skip_cons hs) (by simpa using ht)
      ((hts.behind hs).expression h)
      (by simpa using hk)
  | bodilessSwitch hs ht h hs' hq hk =>
    simpa using Clause.Parses.bodilessSwitch (ρ.skip_cons hs) (by simpa using ht)
      ((hts.behind hs).expression h)
      (ρ.skip_cons hs') (by simpa using hq) (by simpa using hk)
  | switch hs ht h hs' hq hl hb _ ih =>
    have hbody := (((hts.behind hs).rest h).behind hs').behind hl
    simpa [closeSwitch]
      using Clause.Parses.switch (ρ.skip_cons hs) (by simpa using ht) ((hts.behind hs).expression h)
      (ρ.skip_cons hs') (by simpa using hq) (ρ.skip_cons hl) (by simpa using hb) (ih hbody trivial)
  | noEntries hk => exact .congr (.noEntries (by simpa using hk)) (by simp) (by simp)
  | caseEntry hs ht h _ ih ih' =>
    simpa using Clause.Parses.caseEntry (ρ.skip_cons hs) (by simpa using ht)
      (ih (hts.behind hs) trivial)
      (ih' ((hts.behind hs).after h) trivial)
  | defaultEntry hs ht h _ ih ih' =>
    simpa using Clause.Parses.defaultEntry (ρ.skip_cons hs) (by simpa using ht)
      (ih (hts.behind hs) trivial)
      (ih' ((hts.behind hs).after h) trivial)
  | noEntry hs ht _ ih =>
    exact .congr (.noEntry (ρ.skip_cons hs) (by simpa using ht) (ih (hts.behind hs) trivial))
      (by simp [Event.move, Diagnostic.move]) rfl

/-- A program goes along with a retelling. -/
theorem program_tokens (fin : Position) {ts : List Token} (hts : ρ.Suits ts) :
    program (ρ.place fin) (ρ.tokens ts) = (program fin ts).map (Event.move ρ.place) := by
  -- by the number of tokens: every statement takes at least one
  induction hn : ts.length using Nat.strongRecOn generalizing ts with | _ n ih
  cases hs : skip ts with
  | nil => rw [program_of_skip_nil hs, program_of_skip_nil (by simpa using hs), List.map_nil]
  | cons t r =>
    obtain ⟨e, u, h⟩ := Clause.goes fin .statement (t :: r)
    have hu : u.length ≤ r.length := h.length_le
    have hr := length_lt_of_skip hs
    have hstatement := hts.front hs
    have htold := parses_tokens h hstatement trivial
    rw [ρ.tokens_cons (ne_comment_of_skip hs)] at htold
    rw [program_of_parses hs h, program_of_parses (ρ.skip_cons hs) htold,
      ih u.length (by omega) (hstatement.after h) rfl, List.map_append]

end Retelling

end Partitura.ManuScript
