import Partitura.Lint.Brackets
import Partitura.Proofs.ManuScript.Brackets
import Partitura.Proofs.ManuScript.Dialects

/-!
# The scanner of brackets against the tokens of a plugin

`bracketIssues` runs over the characters of a text with a stack of open brackets and finds out by
itself what is in a string or in a comment. The lexer knows that too, from its tokens. In a text
without backslashes the two agree: between two tokens the scanner is where the lexer is (`ScansTo`),
and it complains if and only if the brackets among the tokens are not `Nested`
(`bracketIssues_eq_nil_iff`).

What is still to come behind open brackets is told by `Unwinds`: a nested stretch and the
counterpart of the last open bracket, and so on outwards.
-/

namespace Partitura.ManuScript

/-! ## Closing what is open -/

/-- The kinds close the brackets that are `opened`, the last one first, and are nested otherwise. -/
def Unwinds : List Kind → List Kind → Prop
  | [], ks => Nested ks
  | o :: opened, ks => ∃ a c b, ks = a ++ c :: b ∧ closer? o = some c ∧ Nested a ∧ Unwinds opened b

theorem closer?_eq_none_of_closer {o c : Kind} (h : closer? o = some c) : closer? c = none := by
  have hall : ∀ o ∈ Kind.all, ∀ c ∈ closer? o, closer? c = none := by decide
  exact hall o (by cases o <;> decide) c h

theorem nested_cons_iff {k : Kind} {ks : List Kind} :
    Nested (k :: ks) ↔ (isPlain k = true ∧ Nested ks) ∨ Unwinds [k] ks := by
  constructor
  · intro h
    cases h with
    | plain hk h => exact .inl ⟨hk, h⟩
    | pair hc ha hb => exact .inr ⟨_, _, _, rfl, hc, ha, hb⟩
  · rintro (⟨hk, h⟩ | ⟨a, c, b, rfl, hc, ha, hb⟩)
    · exact .plain hk h
    · exact .pair hc ha hb

theorem unwinds_nil {opened : List Kind} : Unwinds opened [] ↔ opened = [] := by
  cases opened with
  | nil => exact ⟨fun _ => rfl, fun _ => .nil⟩
  | cons o opened => simp [Unwinds]

theorem unwinds_opening {o c : Kind} (hc : closer? o = some c) (opened ks : List Kind) :
    Unwinds opened (o :: ks) ↔ Unwinds (o :: opened) ks := by
  have hplain : isPlain o ≠ true := by rw [(isPlain_of_closer hc).1]; decide
  cases opened with
  | nil => exact nested_cons_iff.trans (or_iff_right fun h => hplain h.1)
  | cons p opened =>
    constructor
    · rintro ⟨a, d, b, heq, hd, ha, hb⟩
      cases a with
      | nil =>
        -- what closes an open bracket opens none
        obtain ⟨rfl, rfl⟩ := List.cons.inj heq
        rw [closer?_eq_none_of_closer hd] at hc
        cases hc
      | cons x a =>
        obtain ⟨rfl, rfl⟩ := List.cons.inj heq
        obtain ⟨hk, -⟩ | ⟨a, e, b', rfl, he, ha, hb'⟩ := nested_cons_iff.1 ha
        · exact absurd hk hplain
        · exact ⟨a, e, b' ++ d :: b, by simp, he, ha, b', d, b, rfl, hd, hb', hb⟩
    · rintro ⟨a, e, b, rfl, he, ha, a', d, b', rfl, hd, ha', hb'⟩
      exact ⟨o :: (a ++ e :: a'), d, b', by simp, hd, .pair he ha ha', hb'⟩

/-- No nested stretch starts with a closing bracket. -/
theorem not_nested_closing {c : Kind} (hplain : isPlain c = false) (hc : closer? c = none)
    (ks : List Kind) : ¬ Nested (c :: ks) := by
  intro h
  obtain ⟨hk, -⟩ | ⟨a, e, b, rfl, he, -⟩ := nested_cons_iff.1 h
  · rw [hplain] at hk
    cases hk
  · rw [hc] at he
    cases he

theorem unwinds_closing {c : Kind} (hplain : isPlain c = false) (hc : closer? c = none) (o : Kind)
    (opened ks : List Kind) :
    Unwinds (o :: opened) (c :: ks) ↔ closer? o = some c ∧ Unwinds opened ks := by
  constructor
  · rintro ⟨a, d, b, heq, hd, ha, hb⟩
    cases a with
    | nil =>
      obtain ⟨rfl, rfl⟩ := List.cons.inj heq
      exact ⟨hd, hb⟩
    | cons x a =>
      obtain ⟨rfl, rfl⟩ := List.cons.inj heq
      exact absurd ha (not_nested_closing hplain hc a)
  · rintro ⟨hd, hb⟩
    exact ⟨[], c, ks, rfl, hd, .nil, hb⟩

end Partitura.ManuScript

namespace Partitura.Lint

open ManuScript ManuScript.Lexer

variable {cs r : List Char} {c : Char} {k : Kind}

/-! ## The scanner between tokens -/

/-- The character before counts only if it is a backslash. -/
theorem bracketsFrom_prev {prev : Option Char} (h : prev ≠ some '\\') (mode : Mode) (pos : Position)
    (opened : List (Position × Char)) (cs : List Char) :
    bracketsFrom mode prev pos opened cs = bracketsFrom mode none pos opened cs := by
  have hb : (prev != some '\\') = true := by simpa using h
  cases cs with
  | nil => rfl
  | cons c r => cases mode <;> simp only [bracketsFrom, hb] <;> rfl

/-- The scanner goes from a text in the code to what is left of it, with the same brackets open and
without a complaint. -/
def ScansTo (cs rest : List Char) : Prop :=
  ∀ pos opened, ∃ pos',
    bracketsFrom .code none pos opened cs = bracketsFrom .code none pos' opened rest

theorem ScansTo.refl (cs : List Char) : ScansTo cs cs := fun pos _ => ⟨pos, rfl⟩

theorem ScansTo.trans {ds es : List Char} (h : ScansTo cs ds) (h' : ScansTo ds es) :
    ScansTo cs es := by
  intro pos opened
  obtain ⟨pos₁, h₁⟩ := h pos opened
  obtain ⟨pos₂, h₂⟩ := h' pos₁ opened
  exact ⟨pos₂, h₁.trans h₂⟩

/-- A bracket. -/
def isBracket (c : Char) : Bool := isOpener c || isCloser c

theorem scansTo_cons (hb : isBracket c = false) (hq : c ∉ ['\'', '"', '\\'])
    (hs : ¬ (c = '/' ∧ r.head? = some '/')) : ScansTo (c :: r) r := by
  intro pos opened
  obtain ⟨ho, hc⟩ := Bool.or_eq_false_iff.1 hb
  simp only [List.mem_cons, List.not_mem_nil, or_false, not_or] at hq
  obtain ⟨ha, hd, hbackslash⟩ := hq
  have hprev (pos : Position) :
      bracketsFrom .code (some c) pos opened r = bracketsFrom .code none pos opened r :=
    bracketsFrom_prev (by simpa using hbackslash) .code pos opened r
  rw [bracketsFrom.eq_def]
  by_cases hn : c = '\n'
  · simp only [if_pos hn]
    exact ⟨_, hprev _⟩
  · simp only [hn, hs, ho, hc, hd, ha, beq_iff_eq, Bool.or_eq_true, Bool.and_eq_true, or_self,
      false_and, Bool.false_eq_true, if_false]
    exact ⟨_, hprev _⟩

/-- The characters that mean something to the scanner. -/
def scanSigns : List Char := ['(', ')', '[', ']', '\x7b', '\x7d', '\'', '"', '\\', '/']

theorem not_mem_scanSigns {p : Char → Bool} (hc : p c = true) (hp : scanSigns.all (!p ·) = true) :
    c ∉ scanSigns :=
  fun hm => ne_of_mem_of_class hc hp c hm rfl

theorem scansTo_append {w : List Char} (hw : ∀ c ∈ w, c ∉ scanSigns) (r : List Char) :
    ScansTo (w ++ r) r := by
  induction w with
  | nil => exact .refl r
  | cons c w ih =>
    obtain ⟨hc, hw⟩ := List.forall_mem_cons.1 hw
    simp only [scanSigns, List.mem_cons, List.not_mem_nil, or_false, not_or] at hc
    refine (scansTo_cons ?_ ?_ ?_).trans (ih hw)
    · simp only [isBracket, isOpener, isCloser, beq_eq_false_iff_ne.2, hc, ne_eq,
        not_false_eq_true, Bool.or_self]
    · simp only [List.mem_cons, hc, List.not_mem_nil, or_self, not_false_eq_true]
    · simp only [hc, false_and, not_false_eq_true]

/-- A first character with more of a class behind it. -/
theorem scansTo_takeWhile {p : Char → Bool} (hc : c ∉ scanSigns)
    (hp : scanSigns.all (!p ·) = true) : ScansTo (c :: r) (r.drop (r.takeWhile p).length) := by
  have hsplit : c :: r.takeWhile p ++ r.drop (r.takeWhile p).length = c :: r :=
    congrArg (c :: ·) (append_drop_of_isPrefix (List.takeWhile_prefix _))
  have hclass : ∀ x ∈ r.takeWhile p, x ∉ scanSigns :=
    fun x hx => not_mem_scanSigns (List.mem_takeWhile_imp hx) hp
  have h :=
    scansTo_append (w := c :: r.takeWhile p) (List.forall_mem_cons.2 ⟨hc, hclass⟩)
      (r.drop (r.takeWhile p).length)
  rwa [hsplit] at h

/-! ## Comments and strings -/

/-- The scanner leaves a comment at the end of its line. -/
theorem bracketsFrom_comment {w rest : List Char} (hw : '\n' ∉ w)
    (hrest : ∀ x ∈ rest.head?, x = '\n') (hbackslash : '\\' ∉ w) (pos : Position)
    (opened : List (Position × Char)) :
    ∃ pos', bracketsFrom .comment none pos opened (w ++ rest) =
      bracketsFrom .code none pos' opened rest := by
  induction w generalizing pos with
  | nil =>
    refine ⟨pos, ?_⟩
    cases rest with
    | nil => rfl
    | cons x r =>
      obtain rfl : x = '\n' := by simpa using hrest
      rfl
  | cons c w ih =>
    have hc : c ≠ '\n' := (List.ne_of_not_mem_cons hw).symm
    have hb : c ≠ '\\' := (List.ne_of_not_mem_cons hbackslash).symm
    have hprev : bracketsFrom .comment (some c) ⟨pos.line, pos.col + 1⟩ opened (w ++ rest) = _ :=
      bracketsFrom_prev (by simpa using hb) ..
    rw [List.cons_append, bracketsFrom, if_neg hc]
    simp only [hprev]
    exact ih (List.not_mem_of_not_mem_cons hw) (List.not_mem_of_not_mem_cons hbackslash) _

theorem scansTo_comment (hr : r.head? = some '/') (hbackslash : '\\' ∉ r) :
    ScansTo ('/' :: r) (r.drop (r.takeWhile (· != '\n')).length) := by
  intro pos opened
  have hcode :
      bracketsFrom .code none pos opened ('/' :: r) =
        bracketsFrom .comment none ⟨pos.line, pos.col + 1⟩ opened r := by
    have hprev : bracketsFrom .comment (some '/') ⟨pos.line, pos.col + 1⟩ opened r = _ :=
      bracketsFrom_prev (by decide) ..
    rw [bracketsFrom.eq_def, ← hprev]
    simp [hr]
  have hsplit : r.takeWhile (· != '\n') ++ r.drop (r.takeWhile (· != '\n')).length = r :=
    append_drop_of_isPrefix (List.takeWhile_prefix _)
  have hline : '\n' ∉ r.takeWhile (· != '\n') := fun h => by simpa using List.mem_takeWhile_imp h
  have hend : ∀ x ∈ (r.drop (r.takeWhile (· != '\n')).length).head?, x = '\n' := fun x hx => by
    simpa using head?_drop_takeWhile _ r x hx
  have hcomment :=
    bracketsFrom_comment hline hend (fun h => hbackslash (List.takeWhile_subset _ h))
      ⟨pos.line, pos.col + 1⟩ opened
  rwa [hsplit, ← hcode] at hcomment

/-- The scanner leaves a string where the lexer does: behind its quote, or at the end of the
text. -/
theorem bracketsFrom_text {q : Char} (hq : q ≠ '\n') (hbackslash : '\\' ∉ cs) (pos : Position)
    (opened : List (Position × Char)) : ∃ pos', bracketsFrom (.text q) none pos opened cs =
      bracketsFrom .code none pos' opened (cs.drop (stringRest false q cs).1.length) := by
  induction cs generalizing pos with
  | nil => exact ⟨pos, rfl⟩
  | cons c r ih =>
    have hb : c ≠ '\\' := (List.ne_of_not_mem_cons hbackslash).symm
    have ih := ih (List.not_mem_of_not_mem_cons hbackslash)
    have hprev (mode : Mode) (pos : Position) :
        bracketsFrom mode (some c) pos opened r = bracketsFrom mode none pos opened r :=
      bracketsFrom_prev (by simpa using hb) mode pos opened r
    rw [stringRest_cons hb, bracketsFrom]
    by_cases hn : c = '\n'
    · subst hn
      have hne : ('\n' == q) = false := by simpa using hq.symm
      rw [if_pos rfl, if_neg Mode.noConfusion, hprev]
      simpa [hne] using ih _
    · rw [if_neg hn]
      by_cases hc : c = q
      · subst hc
        simp only [BEq.rfl, if_true]
        exact ⟨⟨pos.line, pos.col + 1⟩, by simpa using hprev _ _⟩
      · have hne : (c == q) = false := by simpa using hc
        simp only [hne, Bool.false_and, Bool.false_eq_true, if_false]
        rw [hprev]
        simpa using ih _

theorem scansTo_string {q : Char} (hq : q = '\'' ∨ q = '"') (hbackslash : '\\' ∉ r) :
    ScansTo (q :: r) (r.drop (stringRest false q r).1.length) := by
  intro pos opened
  have hcode :
      bracketsFrom .code none pos opened (q :: r) =
        bracketsFrom (.text q) none ⟨pos.line, pos.col + 1⟩ opened r := by
    rw [bracketsFrom.eq_def]
    rcases hq with rfl | rfl <;> exact bracketsFrom_prev (by decide) _ _ _ _
  rw [hcode]
  exact bracketsFrom_text (by rcases hq with rfl | rfl <;> decide) hbackslash _ _

/-! ## One token -/

theorem isPlain_of_isWord (h : k.isWord = true) : isPlain k = true := by
  have hall : ∀ k ∈ Kind.all, k.isWord = true → isPlain k = true := by decide
  exact hall k (by cases k <;> decide) h

theorem isPlain_of_single (hb : isBracket c = false) (h : single? .plugin c = some k) :
    isPlain k = true := by
  have hall : (Kind.all.all fun k => k.mark?.all fun c => isBracket c || isPlain k) = true := by
    decide
  rw [single?_plugin] at h
  split at h
  · cases h
  · have hmark := List.all_eq_true.1 hall k (by cases k <;> decide)
    rw [mark?_of_single h] at hmark
    simpa [hb] using hmark

theorem scansTo_mark (hb : isBracket c = false) (hone : ScansTo (c :: r) r) :
    ScansTo (c :: r) ((c :: r).drop (mark .plugin c r).text.length) ∧
      ∀ l, lexeme? (mark .plugin c r) = some l → isPlain l.1 = true := by
  unfold mark
  split
  · next k e t hp =>
    have hpair : (c, e, k) ∈ [('<', '=', Kind.lte), ('>', '=', .gte), ('!', '=', .neq)] :=
      pair?_cases (by simpa using hp)
    have hall : ∀ x ∈ [('<', '=', Kind.lte), ('>', '=', .gte), ('!', '=', .neq)],
        x.1 ∉ scanSigns ∧ x.2.1 ∉ scanSigns ∧ isPlain x.2.2 = true := by decide
    obtain ⟨hc, he, hk⟩ := hall _ hpair
    refine ⟨scansTo_append (w := [c, e]) (by simp [hc, he]) t, ?_⟩
    rintro l ⟨⟩
    exact hk
  · split
    · next k hk =>
      refine ⟨hone, ?_⟩
      rintro l ⟨⟩
      exact isPlain_of_single hb hk
    · exact ⟨hone, by simp [lexeme?]⟩

/-- Where no bracket stands the scanner takes what the lexer takes, and that is no bracket. -/
theorem scansTo_front (hb : isBracket c = false) (hbackslash : '\\' ∉ c :: r) :
    ScansTo (c :: r) ((c :: r).drop (front .plugin c r).text.length) ∧
      ∀ l, lexeme? (front .plugin c r) = some l → isPlain l.1 = true := by
  have hr := List.not_mem_of_not_mem_cons hbackslash
  have hone (hq : c ≠ '\'' ∧ c ≠ '"') (hs : ¬ (c = '/' ∧ r.head? = some '/')) :
      ScansTo (c :: r) r :=
    scansTo_cons hb (by simp [hq, (List.ne_of_not_mem_cons hbackslash).symm]) hs
  -- the cases are those of the lexer, in its order
  unfold front
  split
  · next hgap =>
    have hne : ∀ d ∈ ['"', '\'', '/'], c ≠ d := ne_of_mem_of_class hgap (by decide)
    exact ⟨hone ⟨hne _ (by decide), hne _ (by decide)⟩ fun h =>
      hne '/' (by decide) h.1, by simp [lexeme?]⟩
  split
  · next hslash =>
    simp only [Bool.and_eq_true, beq_iff_eq] at hslash
    obtain ⟨rfl, hhead⟩ := hslash
    refine ⟨scansTo_comment hhead hr, ?_⟩
    rintro l ⟨⟩
    rfl
  next hslash =>
  split
  · next hq =>
    refine ⟨scansTo_string (by simpa using hq) hr, ?_⟩
    rintro l ⟨⟩
    simp [isPlain]
  next hq =>
  split
  · next hnumber =>
    have hfirst : c ∉ scanSigns := by
      simp only [Bool.or_eq_true, Bool.and_eq_true, beq_iff_eq] at hnumber
      obtain hdigit | ⟨rfl, -⟩ := hnumber
      · exact not_mem_scanSigns hdigit (by decide)
      · decide
    refine ⟨scansTo_takeWhile hfirst (by decide), ?_⟩
    rintro l ⟨⟩
    rfl
  split
  · next hletter =>
    have hfirst : c ∉ scanSigns := by
      simp only [Bool.or_eq_true, beq_iff_eq] at hletter
      obtain hletter | rfl := hletter
      · exact not_mem_scanSigns hletter (by decide)
      · decide
    refine ⟨scansTo_takeWhile hfirst (by decide), ?_⟩
    rintro l ⟨⟩
    exact isPlain_of_isWord (Kind.isWord_ofWord _)
  · exact scansTo_mark hb (hone (by simpa using hq) (by simpa using hslash))

/-! ## Brackets as characters and as tokens -/

/-- The kind of an opening bracket. -/
def openerKind (c : Char) : Kind :=
  if c == '(' then .lparen else if c == '[' then .lbracket else .lbrace

/-- The kind of a closing bracket. -/
def closerKind (c : Char) : Kind :=
  if c == ')' then .rparen else if c == ']' then .rbracket else .rbrace

theorem front_of_isOpener (h : isOpener c = true) (r : List Char) :
    front .plugin c r = .token (openerKind c) c [] := by
  simp only [isOpener, Bool.or_eq_true, beq_iff_eq] at h
  rcases h with (rfl | rfl) | rfl <;> cases r <;> rfl

theorem front_of_isCloser (h : isCloser c = true) (r : List Char) :
    front .plugin c r = .token (closerKind c) c [] := by
  simp only [isCloser, Bool.or_eq_true, beq_iff_eq] at h
  rcases h with (rfl | rfl) | rfl <;> cases r <;> rfl

theorem closer?_openerKind (o : Char) : closer? (openerKind o) = some (closerKind (closer o)) := by
  unfold openerKind closer
  split
  · rfl
  · split <;> rfl

theorem closerKind_spec (c : Char) :
    isPlain (closerKind c) = false ∧ closer? (closerKind c) = none := by
  unfold closerKind
  split
  · exact ⟨rfl, rfl⟩
  · split <;> exact ⟨rfl, rfl⟩

/-- A closing bracket closes what it is the counterpart of. -/
theorem closer?_openerKind_eq_iff (h : isCloser c = true) (o : Char) :
    closer? (openerKind o) = some (closerKind c) ↔ c = closer o := by
  have hclosers :
      ∀ x ∈ [')', ']', '\x7d'], ∀ y ∈ [')', ']', '\x7d'], closerKind x = closerKind y → y = x := by
    simp only [List.mem_cons, List.not_mem_nil, or_false]
    rintro x (rfl | rfl | rfl) y (rfl | rfl | rfl) h
    all_goals first | rfl | cases h
  have hmem : c ∈ [')', ']', '\x7d'] := by simpa [isCloser, or_assoc] using h
  have ho : closer o ∈ [')', ']', '\x7d'] := by
    unfold closer
    split
    · simp
    · split <;> simp
  rw [closer?_openerKind, Option.some.injEq]
  exact ⟨hclosers _ ho c hmem, fun h => by rw [h]⟩

theorem bracketsFrom_opener (h : isOpener c = true) (prev : Option Char) (pos : Position)
    (opened : List (Position × Char)) (r : List Char) :
    bracketsFrom .code prev pos opened (c :: r) =
      bracketsFrom .code (some c) ⟨pos.line, pos.col + 1⟩ ((pos, c) :: opened) r := by
  rw [bracketsFrom.eq_def]
  simp only [isOpener, Bool.or_eq_true, beq_iff_eq] at h
  rcases h with (rfl | rfl) | rfl <;> rfl

theorem bracketsFrom_closer_nil (h : isCloser c = true) (prev : Option Char) (pos : Position)
    (r : List Char) : bracketsFrom .code prev pos [] (c :: r) ≠ [] := by
  rw [bracketsFrom.eq_def]
  simp only [isCloser, Bool.or_eq_true, beq_iff_eq] at h
  rcases h with (rfl | rfl) | rfl <;> exact List.cons_ne_nil _ _

theorem bracketsFrom_closer_cons (h : isCloser c = true) (prev : Option Char) (pos : Position)
    (o : Position × Char) (outer : List (Position × Char)) (r : List Char) :
    bracketsFrom .code prev pos (o :: outer) (c :: r) =
      if c = closer o.2 then bracketsFrom .code (some c) ⟨pos.line, pos.col + 1⟩ outer r
      else ⟨pos, .mismatchedClose (closer o.2) o.1 c⟩ ::
        bracketsFrom .code (some c) ⟨pos.line, pos.col + 1⟩ outer r := by
  rw [bracketsFrom.eq_def]
  simp only [isCloser, Bool.or_eq_true, beq_iff_eq] at h
  rcases h with (rfl | rfl) | rfl <;> rfl

/-! ## Whole texts -/

/-- The brackets among the tokens of a plugin. -/
def brackets (cs : List Char) : List Kind := ((lexemes .plugin cs).map Prod.fst).filter (!isPlain ·)

theorem brackets_of_front (h : front .plugin c r = .token k c []) (hk : isPlain k = false) :
    brackets (c :: r) = k :: brackets r := by
  rw [brackets, lexemes_of_front_token h, List.map_cons, List.filter_cons_of_pos (by simp [hk])]
  rfl

theorem brackets_of_plain (h : ∀ l, lexeme? (front .plugin c r) = some l → isPlain l.1 = true) :
    brackets (c :: r) = brackets ((c :: r).drop (front .plugin c r).text.length) := by
  rw [brackets, lexemes, pieces_cons, List.filterMap_cons]
  split
  · rfl
  · next l hl =>
    rw [List.map_cons, List.filter_cons_of_neg (by simp [h l hl])]
    rfl

/-- The scanner complains about nothing if and only if the brackets to come close those that are
open. -/
theorem bracketsFrom_eq_nil_iff (h : '\\' ∉ cs) (pos : Position) (opened : List (Position × Char)) :
    bracketsFrom .code none pos opened cs = [] ↔ Unwinds (opened.map fun o => openerKind o.2)
    (brackets cs) := by
  fun_induction pieces .plugin cs generalizing pos opened with
  | case1 =>
    rw [bracketsFrom, brackets, lexemes_nil, List.map_nil, List.filter_nil, unwinds_nil,
      List.map_eq_nil_iff, List.map_eq_nil_iff, List.reverse_eq_nil_iff]
  | case2 c r ih =>
    have hr : '\\' ∉ r := List.not_mem_of_not_mem_cons h
    have hprev (opened : List (Position × Char)) (pos : Position) :
        bracketsFrom .code (some c) pos opened r = bracketsFrom .code none pos opened r :=
      bracketsFrom_prev (by simpa using (List.ne_of_not_mem_cons h).symm) .code pos opened r
    by_cases ho : isOpener c = true
    · have hfront := front_of_isOpener ho r
      rw [hfront] at ih
      rw [brackets_of_front hfront (isPlain_of_closer (closer?_openerKind c)).1,
        unwinds_opening (closer?_openerKind c), bracketsFrom_opener ho, hprev]
      exact ih hr _ ((pos, c) :: opened)
    by_cases hc : isCloser c = true
    · have hfront := front_of_isCloser hc r
      obtain ⟨hplain, hnone⟩ := closerKind_spec c
      rw [hfront] at ih
      rw [brackets_of_front hfront hplain]
      cases opened with
      | nil =>
        exact iff_of_false (bracketsFrom_closer_nil hc _ _ _) (not_nested_closing hplain hnone _)
      | cons o outer =>
        rw [List.map_cons, unwinds_closing hplain hnone, closer?_openerKind_eq_iff hc,
          bracketsFrom_closer_cons hc, hprev]
        by_cases hclose : c = closer o.2
        · rw [if_pos hclose, and_iff_right hclose]
          exact ih hr _ outer
        · rw [if_neg hclose]
          exact iff_of_false (List.cons_ne_nil _ _) fun h => hclose h.1
    · have hb : isBracket c = false := by simp [isBracket, ho, hc]
      obtain ⟨hscan, hplain⟩ := scansTo_front hb h
      obtain ⟨pos', heq⟩ := hscan pos opened
      rw [heq, brackets_of_plain hplain]
      exact ih (fun hm => h (List.mem_of_mem_drop hm)) pos' opened

/-- **The scanner matches brackets:** it has no complaint about a text without backslashes if and
only if the brackets among the tokens of the text are properly nested and balanced. -/
theorem bracketIssues_eq_nil_iff {s : String} (h : '\\' ∉ s.toList) :
    bracketIssues s.toList = [] ↔
      Nested (((lexPlugin s).all.map Token.kind).filter (!isPlain ·)) := by
  have hkinds :
      (lexPlugin s).all.map Token.kind = (lexemes .plugin s.toList).map Prod.fst ++ [.fin] := by
    rw [← map_fst_map_lexeme, lexPlugin, map_lexeme_all, List.map_append]
    rfl
  have hfin : [Kind.fin].filter (!isPlain ·) = [] := rfl
  rw [hkinds, List.filter_append, hfin, List.append_nil]
  exact bracketsFrom_eq_nil_iff h ⟨1, 1⟩ []

/-- A string over two lines with an apostrophe in it, a comment with one, and a string that is not
closed. -/
def ragged : String := "\x7b Run \"() \x7b Don't [\n\" y[1]<=(-2) // it's ]\n\x7d 'left ("

theorem bracketIssues_eq_nil_ragged : '\\' ∉ ragged.toList ∧ bracketIssues ragged.toList = [] ∧
    Nested (((lexPlugin ragged).all.map Token.kind).filter (!isPlain ·)) := by
  have hbackslash : '\\' ∉ ragged.toList := by decide
  have hclean : bracketIssues ragged.toList = [] := by decide
  exact ⟨hbackslash, hclean, (bracketIssues_eq_nil_iff hbackslash).1 hclean⟩

end Partitura.Lint
