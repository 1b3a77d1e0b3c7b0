import Partitura.Proofs.ManuScript.Acceptance
import Partitura.Proofs.ManuScript.Clauses

/-!
# The brackets of a body without errors

`Nested` says that the brackets among kinds of tokens are properly nested and balanced. The reader
looks for the closing bracket of whatever it has opened, and tells when it is not there. What it
lets pass is the token that stands where an expression statement should end: a closing parenthesis,
a closing bracket or an opening brace there is taken for the semicolon. So the brackets of a body
without errors are nested but for some that are `loose` (`NestedBut`).
-/

namespace Partitura.ManuScript

open Grammar Reader

variable {a ks : List Kind} {k o c : Kind} {ts r u : List Token} {t : Token} {fin : Position}
  {e : List Event}

/-! ## Nested brackets -/

/-- The kind of bracket that closes one of this kind. -/
def closer? : Kind → Option Kind
  | .lparen => some .rparen
  | .lbracket => some .rbracket
  | .lbrace => some .rbrace
  | _ => none

/-- The kinds that are no brackets. -/
def isPlain : Kind → Bool
  | .lparen | .rparen | .lbracket | .rbracket | .lbrace | .rbrace => false
  | _ => true

/-- The brackets among kinds of tokens are properly nested and balanced. -/
inductive Nested : List Kind → Prop where
  | nil : Nested []
  | plain {k : Kind} {ks : List Kind} : isPlain k = true → Nested ks → Nested (k :: ks)
  | pair {o c : Kind} {a b : List Kind} :
      closer? o = some c → Nested a → Nested b → Nested (o :: (a ++ c :: b))

theorem Nested.append {b : List Kind} (ha : Nested a) (hb : Nested b) : Nested (a ++ b) := by
  induction ha with
  | nil => exact hb
  | plain hk _ ih => exact .plain hk ih
  | pair hc ha _ _ ih =>
    rw [List.cons_append, List.append_assoc, List.cons_append]
    exact .pair hc ha ih

theorem count_of_isPlain {b : Kind} (hk : isPlain k = true) (hb : isPlain b = false)
    (ks : List Kind) : (k :: ks).count b = ks.count b :=
  List.count_cons_of_ne fun h => by rw [h, hb] at hk; cases hk

theorem isPlain_of_closer (h : closer? o = some c) : isPlain o = false ∧ isPlain c = false := by
  have hall : ∀ o ∈ Kind.all, ∀ c ∈ closer? o, isPlain o = false ∧ isPlain c = false := by decide
  exact hall o (by cases o <;> decide) c h

/-- A pair of brackets holds as many of an opening kind as of the one that closes it. -/
theorem count_pair {o' c' : Kind} (h : closer? o = some c) (h' : closer? o' = some c') :
    [o, c].count o' = [o, c].count c' := by
  cases o <;> cases h <;> cases o' <;> cases h' <;> rfl

/-- Nested brackets are as many opening ones as closing ones, of each kind. -/
theorem Nested.count_eq (h : Nested ks) (hc : closer? o = some c) : ks.count o = ks.count c := by
  obtain ⟨ho, hc'⟩ := isPlain_of_closer hc
  induction h with
  | nil => rfl
  | plain hk _ ih => rw [count_of_isPlain hk ho, count_of_isPlain hk hc', ih]
  | @pair o' c' a b hpair _ _ ih ih' =>
    have hends := count_pair hpair hc
    simp only [List.count_cons, List.count_append, List.count_nil] at hends ⊢
    omega

/-- The brackets that the reader takes for the end of a statement. -/
def loose : List Kind := [.rparen, .rbracket, .lbrace]

/-- The brackets among kinds of tokens are nested but for some loose ones. -/
def NestedBut (ks : List Kind) : Prop :=
  ∃ kept : List Kind, kept.Sublist ks ∧ Nested kept ∧ ∀ k ∉ loose, kept.count k = ks.count k

theorem Nested.but (h : Nested ks) : NestedBut ks := ⟨ks, .refl ks, h, fun _ _ => rfl⟩

theorem nestedBut_loose (hk : k ∈ loose) : NestedBut [k] := by
  refine ⟨[], List.nil_sublist _, .nil, fun k' hk' => ?_⟩
  exact (List.count_eq_zero.2 fun h : k' ∈ [k] => hk' ((List.mem_singleton.1 h).symm ▸ hk)).symm

theorem NestedBut.append {b : List Kind} (ha : NestedBut a) (hb : NestedBut b) :
    NestedBut (a ++ b) := by
  obtain ⟨kept, hsub, hnest, hcount⟩ := ha
  obtain ⟨kept', hsub', hnest', hcount'⟩ := hb
  refine ⟨kept ++ kept', hsub.append hsub', hnest.append hnest', fun k hk => ?_⟩
  rw [List.count_append, List.count_append, hcount k hk, hcount' k hk]

theorem NestedBut.pair (hc : closer? o = some c) (ha : NestedBut a) :
    NestedBut (o :: (a ++ [c])) := by
  obtain ⟨kept, hsub, hnest, hcount⟩ := ha
  refine ⟨o :: (kept ++ [c]), (hsub.append (.refl [c])).cons_cons o,
    .pair hc hnest .nil, fun k hk => ?_⟩
  rw [List.count_cons, List.count_cons, List.count_append, List.count_append, hcount k hk]

/-- Where only loose brackets can be wrong, counting shows whether any is. -/
theorem NestedBut.nested_iff (h : NestedBut ks) :
    Nested ks ↔ ∀ o c, closer? o = some c → ks.count o = ks.count c := by
  refine ⟨fun h o c hc => h.count_eq hc, fun hcounts => ?_⟩
  obtain ⟨kept, hsub, hnest, hcount⟩ := h
  have hall (k : Kind) : kept.count k = ks.count k := by
    by_cases hk : k ∈ loose
    · simp only [loose, List.mem_cons, List.not_mem_nil, or_false] at hk
      rcases hk with rfl | rfl | rfl
      · rw [← hnest.count_eq (o := .lparen) rfl, ← hcounts .lparen .rparen rfl,
          hcount _ (by decide)]
      · rw [← hnest.count_eq (o := .lbracket) rfl, ← hcounts .lbracket .rbracket rfl,
          hcount _ (by decide)]
      · rw [hnest.count_eq (o := .lbrace) rfl, hcounts .lbrace .rbrace rfl, hcount _ (by decide)]
    · exact hcount k hk
  rwa [← hsub.eq_of_length (List.perm_iff_count.2 hall).length_eq]

/-! ## What the reader passes over -/

/-- The brackets from `ts` on up to `r` are nested but for loose ones. -/
def Spans (ts r : List Token) : Prop := ∃ a, ts = a ++ r ∧ NestedBut (a.map Token.kind)

theorem Spans.refl (ts : List Token) : Spans ts ts := ⟨[], rfl, Nested.nil.but⟩

theorem Spans.trans (h : Spans ts r) (h' : Spans r u) : Spans ts u := by
  obtain ⟨a, rfl, ha⟩ := h
  obtain ⟨b, rfl, hb⟩ := h'
  exact ⟨a ++ b, (List.append_assoc a b u).symm, by rw [List.map_append]; exact ha.append hb⟩

theorem spans_plain (h : isPlain t.kind = true) (r : List Token) : Spans (t :: r) r :=
  ⟨[t], rfl, (Nested.plain h .nil).but⟩

theorem spans_loose (h : t.kind ∈ loose) (r : List Token) : Spans (t :: r) r :=
  ⟨[t], rfl, nestedBut_loose h⟩

theorem spans_skip (ts : List Token) : Spans ts (skip ts) := by
  induction ts with
  | nil => exact .refl []
  | cons t r ih =>
    by_cases ht : t.kind = .comment
    · rw [skip, List.dropWhile_cons_of_pos (by simpa using ht)]
      exact (spans_plain (by rw [ht]; rfl) r).trans ih
    · rw [skip_cons ht]
      exact .refl _

/-- A token that is no bracket may stand after comments. -/
theorem spans_token (hs : skip ts = t :: r) (ht : isPlain t.kind = true) : Spans ts r :=
  (hs ▸ spans_skip ts).trans (spans_plain ht r)

/-- What stands between an opening bracket and the one that closes it. -/
theorem Spans.enclosed {q : Token} {v : List Token} (h : Spans r (q :: v))
    (hc : closer? t.kind = some q.kind) : Spans (t :: r) v := by
  obtain ⟨a, rfl, ha⟩ := h
  refine ⟨t :: (a ++ [q]), by simp, ?_⟩
  rw [List.map_cons, List.map_append]
  exact ha.pair hc

/-- A bracket that has to follow is there, if nothing is told. -/
theorem exists_of_require {what : String} (hk : k ≠ .fin)
    (h : (require fin k what ts).events.all Event.isHarmless = true) :
    ∃ q, q.kind = k ∧ skip ts = q :: (require fin k what ts).rest := by
  by_cases hkind : kindAt (skip ts) = k
  · obtain ⟨q, v, hs, hq⟩ := exists_of_kindAt hkind hk
    refine ⟨q, hq, ?_⟩
    rw [require, take?_of_skip hs hq]
    exact hs
  · rw [require, (take?_eq_none_iff hk).2 hkind] at h
    cases h

/-- What stands between an opening bracket and the one that has to follow. -/
theorem Spans.required {what : String} (h : Spans r u)
    (hc : closer? t.kind = some k) (hk : k ≠ .fin)
    (hclose : (require fin k what u).events.all Event.isHarmless = true) :
    Spans (t :: r) (require fin k what u).rest := by
  obtain ⟨q, hq, hs⟩ := exists_of_require hk hclose
  have hto : Spans r (q :: (require fin k what u).rest) := h.trans (hs ▸ spans_skip u)
  exact hto.enclosed (by rw [hc, hq])

/-! ## Expressions -/

theorem isPlain_of_mem_operators {n : Nat} (h : k ∈ operators n) : isPlain k = true := by
  have hall : ∀ n < 5, ∀ k ∈ operators n, isPlain k = true := by decide
  exact hall n (lt_of_mem_operators h) k h

theorem spans_operandOf (n : Nat) (r : List Token) : Spans r (operandOf n r) := by
  unfold operandOf
  split
  · exact spans_skip r
  · exact .refl r

/-- What a part of the reader for expressions passes over; the arguments of a call end with the
closing parenthesis. -/
def Reader.Phrase.Spanned (ts r : List Token) : Phrase → Prop
  | .arguments _ _ | .moreArguments _ _ _ => ∃ q : Token, q.kind = .rparen ∧ Spans ts (q :: r)
  | _ => Spans ts r

theorem all_append_iff {a b : List Event} :
    (a ++ b).all Event.isHarmless = true ↔ a.all Event.isHarmless = true ∧
      b.all Event.isHarmless = true := by
  rw [List.all_append, Bool.and_eq_true]

/-- The end of the arguments of a call. -/
theorem spans_closeCall (h : Spans ts u)
    (hclose : (closeCall fin u).events.all Event.isHarmless = true) :
    ∃ q : Token, q.kind = .rparen ∧ Spans ts (q :: (closeCall fin u).rest) := by
  obtain ⟨q, hq, hs⟩ := exists_of_require (by decide) hclose
  exact ⟨q, hq, h.trans (hs ▸ spans_skip u)⟩

/-- An expression without errors has its brackets nested. -/
theorem Reader.Phrase.Parses.spanned {p : Phrase} (h : p.Parses fin ts e r)
    (he : e.all Event.isHarmless = true) : p.Spanned ts r := by
  induction h with
  | noExpression _ => cases he
  | expression _ _ ih => exact (spans_skip _).trans (ih he)
  | operation _ _ ih => exact (ih (all_append_iff.1 he).2).trans (spans_skip _)
  | noValue _ _ _ _ _ => cases (all_append_iff.1 he).2
  | reassignment _ hs ha _ _ ih ih' =>
    obtain ⟨he, he'⟩ := all_append_iff.1 he
    exact ((ih (all_append_iff.1 he).2).trans (spans_token hs (by rw [ha]; rfl))).trans
      ((spans_skip _).trans (ih' he'))
  | level _ _ _ ih ih' => exact (ih (all_append_iff.1 he).1).trans (ih' (all_append_iff.1 he).2)
  | sign _ ht _ ih =>
    have hplain : ∀ k ∈ signs, isPlain k = true := by decide
    exact (spans_plain (hplain _ ht) _).trans (ih he)
  | unsigned _ _ _ ih => exact ih he
  | noOperator _ => exact .refl _
  | noOperand _ _ _ => cases he
  | operator hop _ _ _ ih ih' =>
    obtain ⟨he, he'⟩ := all_append_iff.1 he
    obtain ⟨he, -⟩ := all_append_iff.1 he
    have hoperand := (spans_operandOf _ _).trans (ih (all_append_iff.1 he).2)
    exact (spans_plain (isPlain_of_mem_operators hop) _).trans (hoperand.trans (ih' he'))
  | chain _ _ ih ih' => exact (ih (all_append_iff.1 he).1).trans (ih' (all_append_iff.1 he).2)
  | nothing _ => cases he
  | literal hs ht =>
    have hplain : ∀ k ∈ literals, isPlain k = true := by decide
    exact spans_token hs (hplain _ ht)
  | name hs ht => exact spans_token hs (by rw [ht]; rfl)
  | group hs ht _ ih =>
    obtain ⟨he, he'⟩ := all_append_iff.1 he
    exact (hs ▸ spans_skip _).trans ((ih he).required (by rw [ht]; rfl) (by decide) he')
  | unexpected _ _ => cases he
  | noLink _ => exact spans_skip _
  | noMember _ _ _ => cases he
  | method hs ht hr hu _ _ ih =>
    exact (spans_token hs (by rw [ht]; rfl)).trans
      ((spans_token hr (by rw [hu]; rfl)).trans ((spans_skip _).trans (ih he)))
  | member hs ht hr hu _ _ ih =>
    have hrest := (spans_skip _).trans (ih (all_append_iff.1 he).2)
    exact (spans_token hs (by rw [ht]; rfl)).trans ((spans_token hr (by rw [hu]; rfl)).trans hrest)
  | call hs ht _ _ ih ih' =>
    obtain ⟨he, he'⟩ := all_append_iff.1 he
    obtain ⟨q, hq, hspan⟩ := ih (all_append_iff.1 he).1
    exact (hs ▸ spans_skip _).trans ((hspan.enclosed (by rw [ht, hq]; rfl)).trans (ih' he'))
  | index hs ht _ _ ih ih' =>
    obtain ⟨he, he'⟩ := all_append_iff.1 he
    obtain ⟨he, hclose⟩ := all_append_iff.1 he
    exact (hs ▸ spans_skip _).trans
      (((ih he).required (by rw [ht]; rfl) (by decide) hclose).trans (ih' he'))
  | noProperty _ _ _ => cases he
  | property hs ht hu _ ih =>
    exact (spans_token hs (by rw [ht]; rfl)).trans ((spans_plain (by rw [hu]; rfl) _).trans (ih he))
  | noArgument _ => exact spans_closeCall (spans_skip _) he
  | firstArgument _ _ _ ih ih' =>
    obtain ⟨q, hq, hspan⟩ := ih' (all_append_iff.1 he).2
    exact ⟨q, hq, (spans_skip _).trans ((ih (all_append_iff.1 he).1).trans hspan)⟩
  | lastArgument _ => exact spans_closeCall (.refl _) he
  | lastComma hc _ =>
    exact spans_closeCall ((spans_plain (by rw [hc]; rfl) _).trans (spans_skip _)) he
  | nextArgument hc _ _ _ ih ih' =>
    obtain ⟨q, hq, hspan⟩ := ih' (all_append_iff.1 he).2
    have hargument := (spans_skip _).trans (ih (all_append_iff.1 he).1)
    exact ⟨q, hq, (spans_plain (by rw [hc]; rfl) _).trans (hargument.trans hspan)⟩

/-- No access stands behind what a part of the reader for expressions has read; what follows an
operand is left as it is found. -/
def Reader.Phrase.Linkless (ts r : List Token) : Phrase → Prop
  | .operand _ | .arguments _ _ | .moreArguments _ _ _ => True
  | .tail _ _ _ => kindAt (skip ts) ∉ linkKinds → kindAt (skip r) ∉ linkKinds
  | _ => kindAt (skip r) ∉ linkKinds

theorem Reader.Phrase.Parses.linkless {p : Phrase} (h : p.Parses fin ts e r)
    (he : e.all Event.isHarmless = true) : p.Linkless ts r := by
  induction h with
  | noExpression _ => cases he
  | expression _ _ ih => exact ih he
  | operation _ _ ih =>
    change kindAt (skip (skip _)) ∉ linkKinds
    rw [skip_skip]
    exact ih (all_append_iff.1 he).2
  | noValue _ _ _ _ _ => cases (all_append_iff.1 he).2
  | reassignment _ _ _ _ _ _ ih' => exact ih' (all_append_iff.1 he).2
  | level _ _ _ ih ih' => exact ih' (all_append_iff.1 he).2 (ih (all_append_iff.1 he).1)
  | sign _ _ _ ih => exact ih he
  | unsigned _ _ _ ih => exact ih he
  | noOperator _ => exact id
  | noOperand _ _ _ => cases he
  | operator _ _ _ _ ih ih' =>
    obtain ⟨he, he'⟩ := all_append_iff.1 he
    obtain ⟨he, -⟩ := all_append_iff.1 he
    exact fun _ => ih' he' (ih (all_append_iff.1 he).2)
  | chain _ _ _ ih' => exact ih' (all_append_iff.1 he).2
  | nothing _ | literal _ _ | name _ _ | group _ _ _ _ | unexpected _ _ => trivial
  | noLink h =>
    change kindAt (skip (skip _)) ∉ linkKinds
    rwa [skip_skip]
  | noMember _ _ _ => cases he
  | method _ _ _ _ _ _ ih => exact ih he
  | member _ _ _ _ _ _ ih => exact ih (all_append_iff.1 he).2
  | call _ _ _ _ _ ih' => exact ih' (all_append_iff.1 he).2
  | index _ _ _ _ _ ih' => exact ih' (all_append_iff.1 he).2
  | noProperty _ _ _ => cases he
  | property _ _ _ _ ih => exact ih he
  | noArgument _ | firstArgument _ _ _ _ _ | lastArgument _ | lastComma _ _
  | nextArgument _ _ _ _ _ _ => trivial

/-! ## Statements -/

/-- What a part of the reader for statements passes over. A block ends with its closing brace, and
the end of an expression statement is looked for where no access stands. -/
def Reader.Clause.Spanned (ts r : List Token) : Clause → Prop
  | .block => ∃ q : Token, q.kind = .rbrace ∧ Spans ts (q :: r)
  | .terminator => kindAt (skip ts) ∉ linkKinds → Spans ts r
  | _ => Spans ts r

/-- What ends an expression statement is no bracket, or a loose one that is taken for the
semicolon. -/
theorem spans_semicolon (hs : skip ts = t :: r) (ht : t.kind ∉ .rbrace :: unfinished)
    (hlink : kindAt (skip ts) ∉ linkKinds) : Spans ts r := by
  rw [hs, kindAt_cons] at hlink
  refine (hs ▸ spans_skip ts : Spans ts (t :: r)).trans ?_
  cases hplain : isPlain t.kind with
  | true => exact spans_plain hplain r
  | false =>
    have hall : ∀ k ∈ Kind.all, isPlain k = false → k ∉ linkKinds → k ∉ .rbrace :: unfinished →
        k ∈ loose := by decide
    exact spans_loose (hall _ (by cases t.kind <;> decide) hplain hlink ht) r

/-- What follows a condition in parentheses. -/
theorem spans_condition {v : List Token} {q : Token} (hs : skip ts = t :: r) (ht : t.kind = .lparen)
    (h : Phrase.Parses fin (.expression false) r e u) (he : e.all Event.isHarmless = true)
    (hs' : skip u = q :: v) (hq : q.kind = .rparen) : Spans ts v := by
  have hinner : Spans r (q :: v) := (h.spanned he).trans (hs' ▸ spans_skip u)
  exact (hs ▸ spans_skip ts : Spans ts (t :: r)).trans (hinner.enclosed (by rw [ht, hq]; rfl))

/-- A statement without errors has its brackets nested, but for loose ones. -/
theorem Reader.Clause.Parses.spanned {c : Clause} (h : c.Parses fin ts e r)
    (he : e.all Event.isHarmless = true) : c.Spanned ts r := by
  induction h with
  | returnNothing _ =>
    obtain ⟨q, hq, hs⟩ := exists_of_require (by decide) (all_append_iff.1 he).1
    exact (spans_skip _).trans (spans_token hs (by rw [hq]; rfl))
  | returnValue _ h =>
    obtain ⟨he, hclose⟩ := all_append_iff.1 (all_append_iff.1 he).1
    obtain ⟨q, hq, hs⟩ := exists_of_require (by decide) hclose
    exact (spans_skip _).trans ((h.spanned he).trans (spans_token hs (by rw [hq]; rfl)))
  | ended _ => exact fun _ => spans_skip _
  | noSemicolon _ _ => cases he
  | semicolon hs ht => exact spans_semicolon hs ht
  | noStatement hs => exact hs ▸ spans_skip _
  | stray _ _ => cases he
  | empty hs ht => exact spans_token hs (by rw [ht]; rfl)
  | @headed ts r out t c e hs hc _ ih =>
    have hstart : Spans ts (t :: r) := hs ▸ spans_skip ts
    refine hstart.trans ?_
    have hbody := ih he
    cases hk : t.kind <;> rw [hk] at hc <;> cases hc
    case lbrace.refl =>
      obtain ⟨q, hq, hspan⟩ := hbody
      exact hspan.enclosed (by rw [hk, hq]; rfl)
    all_goals exact (spans_plain (by rw [hk]; rfl) r).trans hbody
  | noSimple _ _ => cases he
  | simple hs _ _ h _ ih =>
    obtain ⟨he, he'⟩ := all_append_iff.1 (show List.all _ _ = true from he)
    exact (hs ▸ spans_skip _).trans ((h.spanned he).trans (ih he' (h.linkless he)))
  | noMore _ => exact .refl _
  | more _ _ _ ih ih' =>
    obtain ⟨he, he'⟩ := all_append_iff.1 he
    exact (ih he).trans ((spans_skip _).trans (ih' he'))
  | block _ ih =>
    obtain ⟨he, hclose⟩ := all_append_iff.1 (all_append_iff.1 he).1
    obtain ⟨q, hq, hs⟩ := exists_of_require (by decide) hclose
    exact ⟨q, hq, (ih he).trans (hs ▸ spans_skip _)⟩
  | noBlock _ => cases he
  | ownedBlock hs ht _ ih =>
    obtain ⟨q, hq, hspan⟩ := ih he
    exact (hs ▸ spans_skip _).trans (hspan.enclosed (by rw [ht, hq]; rfl))
  | unopened _ => cases he
  | unclosed _ _ _ _ => cases (all_append_iff.1 he).2
  | guarded hs ht h hs' hq _ ih =>
    obtain ⟨he, he'⟩ := all_append_iff.1 he
    exact (spans_condition hs ht h he hs' hq).trans (ih he')
  | unopenedIf _ => cases he
  | unclosedIf _ _ _ _ => cases (all_append_iff.1 he).2
  | blocklessIf hs ht h hs' hq _ _ ih =>
    obtain ⟨he, he'⟩ := all_append_iff.1 he
    exact (spans_condition hs ht h (all_append_iff.1 he).2 hs' hq).trans (ih he')
  | conditional hs ht h hs' hq _ _ _ ih ih' =>
    obtain ⟨he, he''⟩ := all_append_iff.1 he
    obtain ⟨he, he'⟩ := all_append_iff.1 he
    exact (spans_condition hs ht h (all_append_iff.1 he).2 hs' hq).trans ((ih he').trans (ih' he''))
  | noElse _ => exact spans_skip _
  | otherwise hs ht _ _ ih => exact (spans_token hs (by rw [ht]; rfl)).trans (ih he)
  | otherwiseIf hs ht hs' hq _ ih =>
    exact (spans_token hs (by rw [ht]; rfl)).trans
      ((spans_token hs' (by rw [hq]; rfl)).trans (ih he))
  | noLoop _ => cases he
  | eachLoop hs ht _ ih => exact (spans_token hs (by rw [ht]; rfl)).trans (ih he)
  | countedLoop hs ht _ ih => exact (spans_token hs (by rw [ht]; rfl)).trans (ih he)
  | noStart _ => cases he
  | noBound _ _ _ _ => cases (all_append_iff.1 he).2
  | counted hs ht h hs' hq h' _ ih =>
    obtain ⟨he, he₂⟩ := all_append_iff.1 he
    obtain ⟨he, he₁⟩ := all_append_iff.1 he
    have hstart := (spans_token hs (by rw [ht]; rfl)).trans (h.spanned he)
    exact hstart.trans ((spans_token hs' (by rw [hq]; rfl)).trans ((h'.spanned he₁).trans (ih he₂)))
  | noVariable _ => cases he
  | noIn _ _ _ => cases he
  | typed hs ht hr hu _ ih =>
    exact (spans_token hs (by rw [ht]; rfl)).trans
      ((spans_token hr (by rw [hu]; rfl)).trans (ih he))
  | untyped hs ht _ _ ih =>
    exact (spans_token hs (by rw [ht]; rfl)).trans ((spans_skip _).trans (ih he))
  | noCollection _ => cases he
  | collection hs ht h _ ih =>
    obtain ⟨he, he'⟩ := all_append_iff.1 he
    exact (spans_token hs (by rw [ht]; rfl)).trans ((h.spanned he).trans (ih he'))
  | unopenedSwitch _ => cases he
  | unclosedSwitch _ _ _ _ => cases (all_append_iff.1 he).2
  | bodilessSwitch _ _ _ _ _ _ => cases (all_append_iff.1 he).2
  | switch hs ht h hs' hq hl hb _ ih =>
    obtain ⟨he, hclose⟩ := all_append_iff.1 he
    obtain ⟨he, he'⟩ := all_append_iff.1 he
    have hbody := (ih he').required (by rw [hb]; rfl) (by decide) hclose
    exact (spans_condition hs ht h he hs' hq).trans ((hl ▸ spans_skip _).trans hbody)
  | noEntries _ => exact spans_skip _
  | caseEntry hs ht _ _ ih ih' =>
    obtain ⟨he, he'⟩ := all_append_iff.1 he
    exact (spans_token hs (by rw [ht]; rfl)).trans ((ih he).trans (ih' he'))
  | defaultEntry hs ht _ _ ih ih' =>
    obtain ⟨he, he'⟩ := all_append_iff.1 he
    exact (spans_token hs (by rw [ht]; rfl)).trans ((ih he).trans (ih' he'))
  | noEntry _ _ _ _ => cases he

/-! ## Bodies -/

/-- The brackets of a program without errors are nested, but for loose ones. -/
theorem spans_program (he : (program fin ts).all Event.isHarmless = true) : Spans ts [] := by
  induction hn : ts.length using Nat.strongRecOn generalizing ts with | _ n ih
  have hskip := spans_skip ts
  cases hs : skip ts with
  | nil => rwa [hs] at hskip
  | cons t r =>
    obtain ⟨e, u, h⟩ := Clause.goes fin .statement (t :: r)
    rw [program_of_parses hs h] at he
    obtain ⟨he, he'⟩ := all_append_iff.1 he
    have hu : u.length ≤ r.length := h.length_le
    have hr := length_lt_of_skip hs
    rw [hs] at hskip
    exact hskip.trans ((h.spanned he).trans (ih u.length (by omega) he' rfl))

/-- Every complaint of the reader is told. -/
theorem harmless_of_analyse {env : Surroundings} {s : Scope} {es : List Event}
    (h : ∀ d ∈ env.analyse s es, d.isError = false) : es.all Event.isHarmless = true := by
  induction es generalizing s with
  | nil => rfl
  | cons e es ih =>
    rw [List.all_cons, Bool.and_eq_true]
    refine ⟨?_, ih fun d hd => h d (List.mem_append_right _ hd)⟩
    cases e with
    | issue d =>
      have hd := h d (List.mem_append_left _ (List.mem_singleton_self d))
      rw [Event.isHarmless, hd]
      rfl
    | _ => rfl

/-- **A bracket error that is not reported is a loose bracket.** If no error is reported about a
body, its brackets are properly nested when some closing parentheses, closing brackets and opening
braces are left out; and they are properly nested as they stand if and only if there are as many
opening as closing brackets of each kind. -/
theorem nestedBut_of_checkBody {env : Surroundings} {p : Position} {body : String}
    (h : ∀ d ∈ checkBody env p body, Text.hasStart d.code "MS-E" = false) :
    (∃ kept : List Kind, kept.Sublist ((lexBody p body).tokens.map Token.kind) ∧ Nested kept ∧
        ∀ k ∉ loose, kept.count k = ((lexBody p body).tokens.map Token.kind).count k) ∧
      (Nested ((lexBody p body).tokens.map Token.kind) ↔ ∀ o c, closer? o = some c →
        ((lexBody p body).tokens.map Token.kind).count o =
          ((lexBody p body).tokens.map Token.kind).count c) := by
  have herrors : ∀ d ∈ checkTokens env (lexBody p body).fin (lexBody p body).tokens,
      d.isError = false :=
    fun d hd => hasStart_code d ▸ h d (List.mem_append_right _ hd)
  obtain ⟨a, htokens, hbut⟩ := spans_program (harmless_of_analyse herrors)
  rw [List.append_nil] at htokens
  rw [htokens]
  exact ⟨hbut, hbut.nested_iff⟩

/-- The condition and the block of this body are nested as they stand. -/
theorem nestedBut_of_checkBody_condition :
    (∀ d ∈ checkBody ⟨⟨[], [], []⟩, [], []⟩ ⟨1, 1⟩ "if (a[f(1)]) \x7b x = (b); \x7d",
      Text.hasStart d.code "MS-E" = false) ∧
        Nested ((lexBody ⟨1, 1⟩ "if (a[f(1)]) \x7b x = (b); \x7d").tokens.map Token.kind) := by
  have h : ∀ d ∈ checkBody ⟨⟨[], [], []⟩, [], []⟩ ⟨1, 1⟩ "if (a[f(1)]) \x7b x = (b); \x7d",
      Text.hasStart d.code "MS-E" = false := by decide +kernel
  refine ⟨h, (nestedBut_of_checkBody h).2.2 fun o c hc => ?_⟩
  cases o <;> cases hc <;> decide +kernel

/-- Brackets without a reported error need not be nested: the parenthesis behind the name is taken
for the semicolon. -/
theorem not_nested_loose_parenthesis :
    (checkBody ⟨⟨[], [], []⟩, [], []⟩ ⟨1, 1⟩ "x);").map Diagnostic.code = ["MS-W020", "MS-W030"] ∧
      ¬ Nested ((lexBody ⟨1, 1⟩ "x);").tokens.map Token.kind) := by
  have hkinds :
      (lexBody ⟨1, 1⟩ "x);").tokens.map Token.kind = [.identifier, .rparen, .semicolon] := by
    decide +kernel
  refine ⟨by decide +kernel, fun h => ?_⟩
  rw [hkinds] at h
  exact absurd (h.count_eq (o := .lparen) rfl) (by decide)

end Partitura.ManuScript
