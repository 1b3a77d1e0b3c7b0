import Mathlib.Data.Bool.Basic
import Partitura.Proofs.ManuScript.Reading

/-!
# The rules of expressions

What the reader does with any tokens where an expression stands, as rules:
`Phrase.Parses fin p ts e r` says that the part `p` of the reader tells `e` about the tokens `ts`
and leaves `r`. There is one rule for each way that a part can go, faults included. The parts call
each other and go down in the number of tokens left; that the rules say exactly what the parts do is
shown once (`Phrase.parses_iff`), and what holds of every reading is then shown by induction on the
rules.
-/

namespace Partitura.ManuScript.Reader

open Grammar

/-- The parts of the reader for expressions. `s` says that an expression stands as a statement. -/
inductive Phrase where
  | expression (s : Bool)
  | operation (s : Bool)
  /-- The operands of a level with the operators between them; on the last level a chain with its
  signs. -/
  | level (s : Bool) (n : Nat)
  /-- What follows the first operand of a level. -/
  | tail (s : Bool) (n : Nat) (lhs : Option Token)
  | chain (s : Bool)
  | operand (s : Bool)
  | links (s : Bool) (receiver : Option String) (last : Option Token)
  /-- The arguments of a call, of which there are `n`. -/
  | arguments (s : Bool) (n : Nat)
  /-- The arguments of a call after the first `m`, of which there are `n` in all. -/
  | moreArguments (s : Bool) (m n : Nat)
deriving DecidableEq, Repr

/-- The operands that are a single token and tell nothing. -/
def literals : List Kind := [.number, .string, .kwTrue, .kwFalse, .kwNull, .invalid]

/-- The target of an assignment, where an expression may be one. -/
def targetOf (s : Bool) (ts : List Token) : List Event := if s then assignmentTarget ts else []

/-- Where the operand behind an operator of a level starts: only sums and products pass over
comments before it. -/
def operandOf (n : Nat) (r : List Token) : List Token := if 3 ≤ n then skip r else r

/-- What is told about an operator of a level before its operand is read. -/
def remarkBefore (n : Nat) (op : Token) (r : List Token) : List Event :=
  if n = 4 then zeroDivisor op r else []

/-- What is told about an operator of a level when its operand has been read. -/
def remarkAfter (n : Nat) (op : Token) (lhs rhs : Option Token) : List Event :=
  if n = 2 then comparedToSelf op lhs rhs else []

/-- The end of the arguments of a call. -/
def closeCall (fin : Position) (ts : List Token) : Reading 0 ts :=
  require fin .rparen "')' to close function call" ts

/-- The end of an expression in parentheses. -/
def closeGroup (fin : Position) (ts : List Token) : Reading 0 ts :=
  require fin .rparen "')' after expression" ts

/-- The end of an index. -/
def closeIndex (fin : Position) (ts : List Token) : Reading 0 ts :=
  require fin .rbracket "']' after index" ts

/-- What the parts of the reader for expressions tell about tokens, and what they leave. -/
inductive Phrase.Parses (fin : Position) :
    Phrase → List Token → List Event → List Token → Prop where
  -- whole expressions
  | noExpression {s : Bool} {ts : List Token} : endsExpression (kindAt (skip ts)) = true →
      Parses fin (.expression s) ts [complain fin (skip ts) .missingExpression] (skip ts)
  | expression {s : Bool} {ts r : List Token} {e : List Event} :
      endsExpression (kindAt (skip ts)) = false → Parses fin (.operation s) (skip ts) e r →
        Parses fin (.expression s) ts e r
  | operation {s : Bool} {ts r : List Token} {e : List Event} :
      Parses fin (.level s 0) ts e r → kindAt (skip r) ≠ .assign →
      Parses fin (.operation s) ts (targetOf s ts ++ e) (skip r)
  | noValue {s : Bool} {ts r u : List Token} {a : Token} {e : List Event} :
      Parses fin (.level s 0) ts e r → skip r = a :: u →
      a.kind = .assign → endsOperand (kindAt (skip u)) = true →
      Parses fin (.operation s) ts
        (targetOf s ts ++ e ++ [complain fin (skip u) .missingValue]) (skip u)
  | reassignment {s : Bool} {ts r u out : List Token} {a : Token} {e e' : List Event} :
      Parses fin (.level s 0) ts e r → skip r = a :: u → a.kind = .assign →
        endsOperand (kindAt (skip u)) = false → Parses fin (.operation s) (skip u) e' out →
      Parses fin (.operation s) ts (targetOf s ts ++ e ++ e') out
  -- operators
  | level {s : Bool} {n : Nat} {ts r out : List Token} {e e' : List Event} :
      n < 5 → Parses fin (.level s (n + 1)) ts e r → Parses fin (.tail s n (alone? ts r)) r e' out →
        Parses fin (.level s n) ts (e ++ e') out
  | sign {s : Bool} {n : Nat} {t : Token} {r out : List Token} {e : List Event} :
      5 ≤ n → t.kind ∈ signs → Parses fin (.level s n) r e out →
        Parses fin (.level s n) (t :: r) e out
  | unsigned {s : Bool} {n : Nat} {ts out : List Token} {e : List Event} :
      5 ≤ n → kindAt ts ∉ signs → Parses fin (.chain s) ts e out → Parses fin (.level s n) ts e out
  | noOperator {s : Bool} {n : Nat} {lhs : Option Token} {ts : List Token} :
      kindAt ts ∉ operators n → Parses fin (.tail s n lhs) ts [] ts
  | noOperand {s : Bool} {n : Nat} {lhs : Option Token} {op : Token} {r : List Token} :
      op.kind ∈ operators n → 3 ≤ n → endsOperand (kindAt (skip r)) = true →
      Parses fin (.tail s n lhs) (op :: r) [complain fin (skip r) .missingOperand] (skip r)
  | operator {s : Bool} {n : Nat} {lhs : Option Token} {op : Token} {r u out : List Token}
    {e e' : List Event} :
      op.kind ∈ operators n → (3 ≤ n → endsOperand (kindAt (skip r)) = false) →
      Parses fin (.level s (n + 1)) (operandOf n r) e u →
        Parses fin (.tail s n (alone? (operandOf n r) u)) u e' out →
      Parses fin (.tail s n lhs) (op :: r)
        (remarkBefore n op (operandOf n r) ++ e ++
          remarkAfter n op lhs (alone? (operandOf n r) u) ++ e') out
  -- operands
  | chain {s : Bool} {ts r out : List Token} {e e' : List Event} : Parses fin (.operand s) ts e r →
      Parses fin (.links s (chainHead ts).1 (chainHead ts).2) r e' out →
        Parses fin (.chain s) ts (e ++ e') out
  | nothing {s : Bool} {ts : List Token} : skip ts = [] →
      Parses fin (.operand s) ts [complain fin [] (.unexpectedToken "")] []
  | literal {s : Bool} {ts r : List Token} {t : Token} :
      skip ts = t :: r → t.kind ∈ literals → Parses fin (.operand s) ts [] r
  | name {s : Bool} {ts r : List Token} {t : Token} : skip ts = t :: r → t.kind = .identifier →
      Parses fin (.operand s) ts [.read t (kindAt r == .lparen || kindAt r == .dot)] r
  | group {s : Bool} {ts r u : List Token} {t : Token} {e : List Event} :
      skip ts = t :: r → t.kind = .lparen → Parses fin (.expression s) r e u →
        Parses fin (.operand s) ts (e ++ (closeGroup fin u).events) (closeGroup fin u).rest
  | unexpected {s : Bool} {ts r : List Token} {t : Token} :
      skip ts = t :: r → t.kind ∉ .identifier :: .lparen :: literals →
      Parses fin (.operand s) ts [complain fin (t :: r) (.unexpectedToken t.text)] r
  -- accesses
  | noLink {s : Bool} {receiver : Option String} {last : Option Token} {ts : List Token} :
      kindAt (skip ts) ∉ linkKinds → Parses fin (.links s receiver last) ts [] (skip ts)
  | noMember {s : Bool} {receiver : Option String} {last : Option Token} {ts r : List Token}
    {t : Token} : skip ts = t :: r →
      t.kind = .dot → kindAt (skip r) ≠ .identifier → Parses fin (.links s receiver last) ts
        [complain fin (skip r) (.missingName "property or method name after '.'")] (skip r)
  | method {s : Bool} {receiver : Option String} {last : Option Token} {ts r w out : List Token}
    {t u : Token} {e : List Event} :
      skip ts = t :: r → t.kind = .dot → skip r = u :: w → u.kind = .identifier →
        kindAt (skip w) = .lparen →
      Parses fin (.links s receiver (some u)) (skip w) e out →
        Parses fin (.links s receiver last) ts e out
  | member {s : Bool} {receiver : Option String} {last : Option Token} {ts r w out : List Token}
    {t u : Token} {e : List Event} :
      skip ts = t :: r → t.kind = .dot → skip r = u :: w → u.kind = .identifier →
        kindAt (skip w) ≠ .lparen →
      Parses fin (.links s none (some u)) (skip w) e out →
        Parses fin (.links s receiver last) ts (accessOf receiver u ++ e) out
  | call {s : Bool} {receiver : Option String} {last : Option Token} {ts r u out : List Token}
    {t : Token} {n : Nat}
      {e e' : List Event} :
          skip ts = t :: r → t.kind = .lparen → Parses fin (.arguments s n) r e u →
      Parses fin (.links s none none) u e' out →
        Parses fin (.links s receiver last) ts (e ++ callOf receiver last n ++ e') out
  | index {s : Bool} {receiver : Option String} {last : Option Token} {ts r u out : List Token}
    {t : Token} {e e' : List Event} :
      skip ts = t :: r → t.kind = .lbracket → Parses fin (.expression s) r e u →
      Parses fin (.links s none none) (closeIndex fin u).rest e' out →
      Parses fin (.links s receiver last) ts (e ++ (closeIndex fin u).events ++ e') out
  | noProperty {s : Bool} {receiver : Option String} {last : Option Token} {ts r : List Token}
    {t : Token} : skip ts = t :: r →
      t.kind = .colon → kindAt r ≠ .identifier → Parses fin (.links s receiver last) ts
        [complain fin r (.missingName "property name after ':'")] r
  | property {s : Bool} {receiver : Option String} {last : Option Token} {ts w out : List Token}
    {t u : Token} {e : List Event} :
      skip ts = t :: u :: w → t.kind = .colon → u.kind = .identifier →
        Parses fin (.links s none none) w e out →
      Parses fin (.links s receiver last) ts e out
  -- arguments
  | noArgument {s : Bool} {ts : List Token} : kindAt (skip ts) = .rparen →
      Parses fin (.arguments s 0) ts (closeCall fin (skip ts)).events (closeCall fin (skip ts)).rest
  | firstArgument {s : Bool} {n : Nat} {ts r out : List Token} {e e' : List Event} :
      kindAt (skip ts) ≠ .rparen → Parses fin (.expression s) (skip ts) e r →
        Parses fin (.moreArguments s 1 n) r e' out →
      Parses fin (.arguments s n) ts (e ++ e') out
  | lastArgument {s : Bool} {n : Nat} {ts : List Token} : kindAt ts ≠ .comma →
      Parses fin (.moreArguments s n n) ts (closeCall fin ts).events (closeCall fin ts).rest
  | lastComma {s : Bool} {n : Nat} {c : Token} {r : List Token} :
      c.kind = .comma → kindAt (skip r) = .rparen →
        Parses fin (.moreArguments s n n) (c :: r) (closeCall fin (skip r)).events
          (closeCall fin (skip r)).rest
  | nextArgument {s : Bool} {m n : Nat} {c : Token} {r u out : List Token} {e e' : List Event} :
      c.kind = .comma → kindAt (skip r) ≠ .rparen → Parses fin (.expression s) (skip r) e u →
        Parses fin (.moreArguments s (m + 1) n) u e' out →
      Parses fin (.moreArguments s m n) (c :: r) (e ++ e') out

variable {p : Phrase} {e : List Event} {n : Nat} {k : Kind}

/-- A rule tells what is the same as what it tells. -/
theorem Phrase.Parses.congr {fin : Position} {ts r r' : List Token} {e' : List Event}
    (h : p.Parses fin ts e r) (he : e = e') (hr : r = r') : p.Parses fin ts e' r' := he ▸ hr ▸ h

theorem operandOf_suffix (n : Nat) (r : List Token) : operandOf n r <:+ r := by
  rw [operandOf]
  split
  · exact List.dropWhile_suffix _
  · exact List.suffix_rfl

/-! ## At most one rule applies -/

/-- The part without the number of arguments, which reading finds. -/
def Phrase.uncounted : Phrase → Phrase
  | .arguments s _ => .arguments s 0
  | .moreArguments s m _ => .moreArguments s m 0
  | p => p

theorem identifier_not_mem_literals : Kind.identifier ∉ literals := by decide

theorem lparen_not_mem_literals : Kind.lparen ∉ literals := by decide

/-- The premises of two rules for the same part never hold of the same tokens. -/
theorem Phrase.Parses.unique {fin : Position} {q : Phrase} {ts r r' : List Token} {e' : List Event}
    (h : p.Parses fin ts e r) (h' : q.Parses fin ts e' r') (hq : q.uncounted = p.uncounted) :
    q = p ∧ e' = e ∧ r' = r := by
  induction h generalizing q e' r' <;> cases q <;> cases hq <;> cases h' <;>
    grind [kindAt, linkKinds, Phrase.uncounted, identifier_not_mem_literals,
      lparen_not_mem_literals]

/-! ## The rules say what the reader does -/

/-- The outcome of a reading. -/
structure Yields {k : Nat} {ts : List Token} (R : Reading k ts) (e : List Event)
    (r : List Token) : Prop where
  events_eq : R.events = e
  rest_eq : R.rest = r

/-- What a part of the reader for expressions does. -/
def Phrase.Does (fin : Position) (ts : List Token) (e : List Event) (r : List Token) : Phrase → Prop
  | .expression s => Yields (Reader.expression fin s ts) e r
  | .operation s => Yields (Reader.operation fin s ts) e r
  | .level s n => Yields (Reader.level fin s n ts) e r
  | .tail s n lhs => Yields (Reader.tail fin s n lhs ts) e r
  | .chain s => Yields (Reader.chain fin s ts) e r
  | .operand s => Yields (Reader.operand fin s ts) e r
  | .links s receiver last => Yields (Reader.links fin s receiver last ts) e r
  | .arguments s n =>
    Yields (Reader.arguments fin s ts).toReading e r ∧ (Reader.arguments fin s ts).count = n
  | .moreArguments s m n =>
    Yields (Reader.moreArguments fin s m ts).toReading e r ∧
      (Reader.moreArguments fin s m ts).count = n

/-- The rules say what a part does. -/
def Phrase.Reads (fin : Position) (ts : List Token) (p : Phrase) : Prop :=
  ∀ ⦃e r⦄, p.Does fin ts e r → p.Parses fin ts e r

/-- What goes down from a part to the parts that it calls at the same token. -/
def Phrase.rank : Phrase → Nat
  | .operand _ | .links _ _ _ => 0
  | .chain _ => 1
  | .level _ n => 14 - 2 * min n 6
  | .tail _ n _ => 13 - 2 * min n 6
  | .operation _ => 15
  | .expression _ => 16
  | .moreArguments _ _ _ => 17
  | .arguments _ _ => 18

/-- What goes down from a part to all the parts that it calls. -/
def Phrase.weight (p : Phrase) (ts : List Token) : Nat := 32 * ts.length + p.rank

theorem Phrase.rank_le (p : Phrase) : p.rank ≤ 18 := by
  unfold Phrase.rank
  split <;> omega

/-- Some rule says what every part of less weight does. -/
def Phrase.ReadsBelow (fin : Position) (w : Nat) : Prop :=
  ∀ p us, Phrase.weight p us < w → p.Reads fin us

section Coverage

variable {fin : Position} {s : Bool} {ts r : List Token} {t : Token}

theorem Phrase.ReadsBelow.shorter (ih : Phrase.ReadsBelow fin (p.weight ts)) (q : Phrase)
    {u : List Token} (h : u.length < ts.length) : q.Reads fin u :=
  ih q u (by have := q.rank_le; simp only [Phrase.weight]; omega)

theorem Phrase.ReadsBelow.lower (ih : Phrase.ReadsBelow fin (p.weight ts)) (q : Phrase)
    {u : List Token} (h : q.rank < p.rank) (hu : u.length ≤ ts.length) : q.Reads fin u :=
  ih q u (by simp only [Phrase.weight]; omega)

theorem kindAt_skip (ts : List Token) : kindAt (skip ts) ≠ .comment := by
  induction ts with
  | nil => decide
  | cons t r ih =>
    by_cases ht : t.kind = .comment
    · rwa [skip, List.dropWhile_cons_of_pos (by simpa using ht)]
    · rwa [skip_cons ht]

theorem skip_skip (ts : List Token) : skip (skip ts) = skip ts := skip_of_kindAt (kindAt_skip ts)

theorem ne_comment_of_skip (h : skip ts = t :: r) : t.kind ≠ .comment := by
  have hkind := kindAt_skip ts
  rwa [h] at hkind

theorem ne_comment_of_mem_operators (h : k ∈ operators n) : k ≠ .comment := by
  rintro rfl
  match n with
  | 0 | 1 | 2 | 3 | 4 | _ + 5 => simp [operators] at h

theorem length_lt_of_skip (h : skip ts = t :: r) : r.length < ts.length := by
  have hle := length_skip_le ts
  rw [h, List.length_cons] at hle
  omega

theorem exists_of_kindAt (h : kindAt ts = k) (hk : k ≠ .fin) : ∃ t r, ts = t :: r ∧ t.kind = k := by
  cases ts with
  | nil => exact absurd h.symm hk
  | cons t r => exact ⟨t, r, rfl, h⟩

theorem take?_of_skip (hs : skip ts = t :: r) (ht : t.kind = k) :
    take? k ts = some ⟨r, length_lt_of_skip hs⟩ := by
  unfold take?
  split
  · next h => rw [hs] at h; cases h
  · next h =>
    rw [hs] at h
    cases h
    rw [if_pos ht]

theorem take?_eq_none_iff (hk : k ≠ .fin) : take? k ts = none ↔ kindAt (skip ts) ≠ k := by
  unfold take?
  split
  · next h => simp [h, kindAt, Ne.symm hk]
  · next t r h => simp [h, kindAt]

theorem skip_of_take? {h : r.length < ts.length} (htake : take? k ts = some ⟨r, h⟩) :
    ∃ t, skip ts = t :: r ∧ t.kind = k := by
  unfold take? at htake
  split at htake
  · cases htake
  · next t u hs =>
    split at htake
    · next ht => cases htake; exact ⟨t, hs, ht⟩
    · cases htake

theorem reads_expression (ih : Phrase.ReadsBelow fin ((Phrase.expression s).weight ts)) :
    (Phrase.expression s).Reads fin ts := by
  rintro _ _ ⟨rfl, rfl⟩
  rw [Reader.expression]
  split
  · next hend => exact .noExpression hend
  · next hend =>
    exact .expression (by simpa using hend)
      (ih.lower (.operation s) (by simp [Phrase.rank]) (length_skip_le ts) ⟨rfl, rfl⟩)

theorem reads_operation (ih : Phrase.ReadsBelow fin ((Phrase.operation s).weight ts)) :
    (Phrase.operation s).Reads fin ts := by
  rintro _ _ ⟨rfl, rfl⟩
  have h : (Phrase.level s 0).Parses fin ts _ _ :=
    ih.lower _ (by simp [Phrase.rank]) (Nat.le_refl _) ⟨rfl, rfl⟩
  rw [Reader.operation]
  dsimp only
  split
  · next hnone => exact .operation h ((take?_eq_none_iff (by decide)).1 hnone)
  · next u hu hsome =>
    obtain ⟨a, hs, ha⟩ := skip_of_take? hsome
    split
    · next hend => exact .noValue h hs ha hend
    · next hend =>
      have hr := (disjunction fin s ts).bound
      have hlen := length_skip_le u
      exact .reassignment h hs ha (by simpa using hend)
        (ih.shorter (.operation s) (by omega) ⟨rfl, rfl⟩)

/-- An operand of the next level and what follows it. -/
theorem reads_operands (hn : n < 5) (ih : Phrase.ReadsBelow fin ((Phrase.level s n).weight ts)) :
    let R := level fin s (n + 1) ts
    let R' := tail fin s n (alone? ts R.rest) R.rest
    (Phrase.level s n).Parses fin ts (R.events ++ R'.events) R'.rest := by
  intro R R'
  have hrest := (level fin s (n + 1) ts).bound
  exact .level hn
    (ih.lower (.level s (n + 1)) (by simp only [Phrase.rank]; omega) (Nat.le_refl _) ⟨rfl, rfl⟩)
    (ih.lower (.tail s n _) (by simp only [Phrase.rank]; omega) (by omega) ⟨rfl, rfl⟩)

theorem reads_level (ih : Phrase.ReadsBelow fin ((Phrase.level s n).weight ts)) :
    (Phrase.level s n).Reads fin ts := by
  rintro _ _ ⟨rfl, rfl⟩
  match n with
  | 0 => rw [level, disjunction]; exact reads_operands (by decide) ih
  | 1 => rw [level, conjunction]; exact reads_operands (by decide) ih
  | 2 => rw [level, comparison]; exact reads_operands (by decide) ih
  | 3 => rw [level, sum]; exact reads_operands (by decide) ih
  | 4 => rw [level, product]; exact reads_operands (by decide) ih
  | m + 5 =>
    have hchain : (Phrase.chain s).Parses fin ts _ _ :=
      ih.lower _ (by simp only [Phrase.rank]; omega) (Nat.le_refl _) ⟨rfl, rfl⟩
    rw [show level fin s (m + 5) = unary fin s from rfl]
    cases ts with
    | nil => rw [unary]; exact .unsigned (by omega) (by decide) hchain
    | cons t r =>
      rw [unary]
      split
      · next ht =>
        exact .sign (by omega) (by simpa [signs] using ht)
          (ih.shorter (.level s (m + 5)) (Nat.lt_succ_self _) ⟨rfl, rfl⟩)
      · next ht => exact .unsigned (by omega) (by simpa [signs] using ht) hchain

/-- An operator with its operand and what follows it. -/
theorem reads_operator {op : Token} {lhs : Option Token} (hop : op.kind ∈ operators n)
    (hr : 3 ≤ n → endsOperand (kindAt (skip r)) = false)
    (ih : Phrase.ReadsBelow fin ((Phrase.tail s n lhs).weight (op :: r))) :
    let R := level fin s (n + 1) (operandOf n r)
    let R' := tail fin s n (alone? (operandOf n r) R.rest) R.rest
    (Phrase.tail s n lhs).Parses fin (op :: r) (remarkBefore n op (operandOf n r) ++ R.events ++
      remarkAfter n op lhs (alone? (operandOf n r) R.rest) ++ R'.events) R'.rest := by
  intro R R'
  have hlen : (operandOf n r).length ≤ r.length := (operandOf_suffix n r).length_le
  have hrest : R.rest.length ≤ (operandOf n r).length - 1 := R.bound
  exact .operator hop hr (ih.shorter (.level s (n + 1)) (Nat.lt_succ_of_le hlen) ⟨rfl, rfl⟩)
    (ih.shorter (.tail s n _) (by rw [List.length_cons]; omega) ⟨rfl, rfl⟩)

theorem reads_tail_nil (fin : Position) (s : Bool) (n : Nat) (lhs : Option Token) :
    (Phrase.tail s n lhs).Reads fin [] := by
  rintro _ _ ⟨rfl, rfl⟩
  match n with
  | 0 => rw [tail, disjuncts]; exact .noOperator (by decide)
  | 1 => rw [tail, conjuncts]; exact .noOperator (by decide)
  | 2 => rw [tail, comparisons]; exact .noOperator (by decide)
  | 3 => rw [tail, summands]; exact .noOperator (by decide)
  | 4 => rw [tail, factors]; exact .noOperator (by decide)
  | _ + 5 => exact .noOperator (by simp [operators])

theorem reads_tail {lhs : Option Token}
    (ih : Phrase.ReadsBelow fin ((Phrase.tail s n lhs).weight ts)) :
    (Phrase.tail s n lhs).Reads fin ts := by
  cases ts with
  | nil => exact reads_tail_nil fin s n lhs
  | cons op r =>
    rintro _ _ ⟨rfl, rfl⟩
    match n with
    | 0 =>
      rw [tail, disjuncts]
      split
      · next hop =>
        exact (reads_operator (by simpa [operators] using hop) (by simp) ih).congr
          (by simp [remarkBefore, remarkAfter]; rfl) rfl
      · next hop => exact .noOperator (by simpa [operators] using hop)
    | 1 =>
      rw [tail, conjuncts]
      split
      · next hop =>
        exact (reads_operator (by simpa [operators] using hop) (by simp) ih).congr
          (by simp [remarkBefore, remarkAfter]; rfl) rfl
      · next hop => exact .noOperator (by simpa [operators] using hop)
    | 2 =>
      rw [tail, comparisons]
      split
      · next hop => exact reads_operator (mem_operators_two.2 hop) (by simp) ih
      · next hop => exact .noOperator (mt mem_operators_two.1 hop)
    | 3 =>
      rw [tail, summands]
      split
      · next hop =>
        split
        · next hend => exact .noOperand (mem_operators_three.2 hop) (by decide) hend
        · next hend =>
          exact (reads_operator (mem_operators_three.2 hop) (fun _ => by simpa using hend) ih).congr
            (by simp [remarkBefore, remarkAfter]; rfl) rfl
      · next hop => exact .noOperator (mt mem_operators_three.1 hop)
    | 4 =>
      rw [tail, factors]
      split
      · next hop =>
        split
        · next hend => exact .noOperand (mem_operators_four.2 hop) (by decide) hend
        · next hend =>
          exact (reads_operator (mem_operators_four.2 hop) (fun _ => by simpa using hend) ih).congr
            (by simp [remarkBefore, remarkAfter]; rfl) rfl
      · next hop => exact .noOperator (mt mem_operators_four.1 hop)
    | _ + 5 => exact .noOperator (by simp [operators])

theorem reads_chain (ih : Phrase.ReadsBelow fin ((Phrase.chain s).weight ts)) :
    (Phrase.chain s).Reads fin ts := by
  rintro _ _ ⟨rfl, rfl⟩
  have hr := (operand fin s ts).bound
  rw [Reader.chain]
  exact .chain (ih.lower (.operand s) (by simp [Phrase.rank]) (Nat.le_refl _) ⟨rfl, rfl⟩)
    (ih.lower (.links s _ _) (by simp [Phrase.rank]) (by omega) ⟨rfl, rfl⟩)

theorem reads_operand (ih : Phrase.ReadsBelow fin ((Phrase.operand s).weight ts)) :
    (Phrase.operand s).Reads fin ts := by
  rintro _ _ ⟨rfl, rfl⟩
  rw [Reader.operand]
  split
  · next hs => exact .nothing hs
  · next t r hs =>
    split
    case h_7 hk => exact .name hs hk
    case h_8 hk => exact .group hs hk (ih.shorter (.expression s) (length_lt_of_skip hs) ⟨rfl, rfl⟩)
    case h_9 => exact .unexpected hs (by simp_all [literals])
    all_goals next hk => exact .literal hs (by rw [hk]; decide)

theorem reads_links {receiver : Option String} {last : Option Token}
    (ih : Phrase.ReadsBelow fin ((Phrase.links s receiver last).weight ts)) :
    (Phrase.links s receiver last).Reads fin ts := by
  rintro _ _ ⟨rfl, rfl⟩
  rw [Reader.links]
  split
  · next hs => exact (Phrase.Parses.noLink (by rw [hs]; decide)).congr rfl hs
  · next t r hs =>
    have hlen := length_lt_of_skip hs
    split
    · next hdot =>
      split
      · next hr =>
        exact (Phrase.Parses.noMember hs hdot (by rw [hr]; decide)).congr
          (congrArg (fun us => [complain fin us _]) hr) hr
      · next u w hr =>
        have hw := length_lt_of_skip hr
        have hskip := length_skip_le w
        split
        · next hname =>
          split
          · next hcall =>
            exact .method hs hdot hr hname hcall
              (ih.shorter (.links s receiver (some u)) (by omega) ⟨rfl, rfl⟩)
          · next hcall =>
            exact .member hs hdot hr hname hcall
              (ih.shorter (.links s none (some u)) (by omega) ⟨rfl, rfl⟩)
        · next hname =>
          exact (Phrase.Parses.noMember hs hdot (by rwa [hr])).congr
            (congrArg (fun us => [complain fin us _]) hr) hr
    · next hparen =>
      have hu := (arguments fin s r).bound
      exact .call hs hparen (ih.shorter (.arguments s _) hlen ⟨⟨rfl, rfl⟩, rfl⟩)
        (ih.shorter (.links s none none) (by omega) ⟨rfl, rfl⟩)
    · next hbracket =>
      have hu := (expression fin s r).bound
      have hclose := (closeIndex fin (expression fin s r).rest).bound
      exact .index hs hbracket (ih.shorter (.expression s) hlen ⟨rfl, rfl⟩)
        (ih.shorter (.links s none none) (by omega) ⟨rfl, rfl⟩)
    · next hcolon =>
      cases r with
      | nil => exact .noProperty hs hcolon (by decide)
      | cons u w =>
        rw [List.length_cons] at hlen
        dsimp only
        split
        · next hname =>
          exact .property hs hcolon hname (ih.shorter (.links s none none) (by omega) ⟨rfl, rfl⟩)
        · next hname => exact .noProperty hs hcolon hname
    · exact (Phrase.Parses.noLink (by rw [hs]; simp_all [linkKinds, kindAt])).congr rfl hs

theorem reads_arguments (ih : Phrase.ReadsBelow fin ((Phrase.arguments s n).weight ts)) :
    (Phrase.arguments s n).Reads fin ts := by
  rintro _ _ ⟨⟨rfl, rfl⟩, rfl⟩
  have hlen := length_skip_le ts
  rw [Reader.arguments]
  split
  · next hp => exact .noArgument hp
  · next hp =>
    have hr := (expression fin s (skip ts)).bound
    exact .firstArgument hp (ih.lower (.expression s) (by simp [Phrase.rank]) hlen ⟨rfl, rfl⟩)
      (ih.lower (.moreArguments s 1 _) (by simp [Phrase.rank]) (by omega) ⟨⟨rfl, rfl⟩, rfl⟩)

theorem reads_moreArguments {m : Nat}
    (ih : Phrase.ReadsBelow fin ((Phrase.moreArguments s m n).weight ts)) :
    (Phrase.moreArguments s m n).Reads fin ts := by
  rintro _ _ ⟨⟨rfl, rfl⟩, rfl⟩
  cases ts with
  | nil => rw [Reader.moreArguments]; exact .lastArgument (by decide)
  | cons c r =>
    have hlen := length_skip_le r
    rw [Reader.moreArguments]
    split
    · next hc =>
      split
      · next hp => exact .lastComma hc hp
      · next hp =>
        have hu := (expression fin s (skip r)).bound
        exact .nextArgument hc hp (ih.shorter (.expression s) (Nat.lt_succ_of_le hlen) ⟨rfl, rfl⟩)
          (ih.shorter (.moreArguments s (m + 1) _) (by rw [List.length_cons]; omega)
            ⟨⟨rfl, rfl⟩, rfl⟩)
    · next hc => exact .lastArgument hc

end Coverage

/-- The rules say what every part does with all tokens. -/
theorem Phrase.reads (fin : Position) (p : Phrase) (ts : List Token) : p.Reads fin ts := by
  induction hw : p.weight ts using Nat.strongRecOn generalizing p ts with | _ w ih
  have below : Phrase.ReadsBelow fin (p.weight ts) := fun q us hlt => ih _ (hw ▸ hlt) q us rfl
  cases p with
  | expression s => exact reads_expression below
  | operation s => exact reads_operation below
  | level s n => exact reads_level below
  | tail s n lhs => exact reads_tail below
  | chain s => exact reads_chain below
  | operand s => exact reads_operand below
  | links s receiver last => exact reads_links below
  | arguments s n => exact reads_arguments below
  | moreArguments s m n => exact reads_moreArguments below

theorem Phrase.exists_does (fin : Position) (p : Phrase) (ts : List Token) :
    ∃ (q : Phrase) (e : List Event) (r : List Token), q.uncounted = p.uncounted ∧
      q.Does fin ts e r := by
  cases p
  case arguments s n =>
    exact ⟨.arguments s (Reader.arguments fin s ts).count, _, _, rfl, ⟨rfl, rfl⟩, rfl⟩
  case moreArguments s m n =>
    exact ⟨.moreArguments s m (Reader.moreArguments fin s m ts).count, _, _, rfl, ⟨rfl, rfl⟩, rfl⟩
  all_goals exact ⟨_, _, _, rfl, rfl, rfl⟩

/-- Each rule says what the reader does. -/
theorem Phrase.Parses.does {fin : Position} {ts r : List Token} (h : p.Parses fin ts e r) :
    p.Does fin ts e r := by
  obtain ⟨q, e', r', hq, hdoes⟩ := Phrase.exists_does fin p ts
  obtain ⟨rfl, rfl, rfl⟩ := h.unique (Phrase.reads fin q ts hdoes) hq
  exact hdoes

/-- The rules say exactly what the reader does. -/
theorem Phrase.parses_iff {fin : Position} {ts r : List Token} :
    p.Parses fin ts e r ↔ p.Does fin ts e r := ⟨Parses.does, fun h => Phrase.reads fin p ts h⟩

/-- The number of tokens that a part takes, if there are any. -/
def Phrase.taken : Phrase → Nat
  | .operation _ | .level _ _ | .chain _ | .operand _ => 1
  | _ => 0

theorem Phrase.Parses.length_le {fin : Position} {ts r : List Token} (h : p.Parses fin ts e r) :
    r.length ≤ ts.length - p.taken := by
  have hdoes := h.does
  cases p <;> rw [Phrase.Does] at hdoes
  case arguments | moreArguments => exact hdoes.1.rest_eq ▸ Reading.bound _
  all_goals exact hdoes.rest_eq ▸ Reading.bound _

/-! ## What is left -/

section Suffix

variable {ts r : List Token} {t : Token}

theorem skip_suffix (ts : List Token) : skip ts <:+ ts := List.dropWhile_suffix _

theorem suffix_of_skip (h : skip ts = t :: r) : r <:+ ts :=
  (List.suffix_cons t r).trans (h ▸ skip_suffix ts)

theorem leaveBlock_suffix (d : Nat) (ts : List Token) : leaveBlock d ts <:+ ts := by
  fun_induction leaveBlock d ts with
  | case1 ts => exact List.suffix_rfl
  | case2 => exact List.suffix_rfl
  | case3 d t r _ ih | case4 d t r _ ih | case5 d t r _ _ ih =>
    exact ih.trans (List.suffix_cons t r)

theorem recover_suffix (ts : List Token) : recover ts <:+ ts := by
  have hdrop :=
    List.dropWhile_suffix (fun t : Token => t.kind != .lbrace && t.kind != .rbrace) (l := ts)
  unfold recover
  split
  · exact List.nil_suffix
  · next t r h =>
    rw [h] at hdrop
    split
    · exact ((leaveBlock_suffix 1 r).trans (List.suffix_cons t r)).trans hdrop
    · exact hdrop

theorem rest_abandon_suffix (fin : Position) (i : Issue) (ts : List Token) :
    (abandon fin i ts).rest <:+ ts :=
  (recover_suffix _).trans (skip_suffix ts)

theorem rest_require_suffix (fin : Position) (k : Kind) (what : String) (ts : List Token) :
    (require fin k what ts).rest <:+ ts := by
  unfold require
  split
  · next h =>
    obtain ⟨t, hs, _⟩ := skip_of_take? h
    exact suffix_of_skip hs
  · exact skip_suffix ts

end Suffix

/-- What a part leaves is the end of the tokens. -/
theorem Phrase.Parses.suffix {fin : Position} {ts r : List Token} (h : p.Parses fin ts e r) :
    r <:+ ts := by
  induction h with
  | noExpression _ | noLink _ => exact skip_suffix _
  | expression _ _ ih => exact ih.trans (skip_suffix _)
  | operation _ _ ih => exact (skip_suffix _).trans ih
  | noValue _ hs _ _ ih => exact (skip_suffix _).trans ((suffix_of_skip hs).trans ih)
  | reassignment _ hs _ _ _ ih ih' =>
    exact ih'.trans ((skip_suffix _).trans ((suffix_of_skip hs).trans ih))
  | level _ _ _ ih ih' => exact ih'.trans ih
  | sign _ _ _ ih => exact ih.trans (List.suffix_cons _ _)
  | unsigned _ _ _ ih => exact ih
  | noOperator _ => exact List.suffix_rfl
  | noOperand _ _ _ => exact (skip_suffix _).trans (List.suffix_cons _ _)
  | operator _ _ _ _ ih ih' =>
    exact ih'.trans (ih.trans ((operandOf_suffix _ _).trans (List.suffix_cons _ _)))
  | chain _ _ ih ih' => exact ih'.trans ih
  | nothing _ => exact List.nil_suffix
  | literal hs _ | name hs _ | unexpected hs _ | noProperty hs _ _ => exact suffix_of_skip hs
  | group hs _ _ ih => exact (rest_require_suffix _ _ _ _).trans (ih.trans (suffix_of_skip hs))
  | noMember hs _ _ => exact (skip_suffix _).trans (suffix_of_skip hs)
  | method hs _ hs' _ _ _ ih | member hs _ hs' _ _ _ ih =>
    exact ih.trans ((skip_suffix _).trans ((suffix_of_skip hs').trans (suffix_of_skip hs)))
  | call hs _ _ _ ih ih' => exact ih'.trans (ih.trans (suffix_of_skip hs))
  | index hs _ _ _ ih ih' =>
    exact ih'.trans ((rest_require_suffix _ _ _ _).trans (ih.trans (suffix_of_skip hs)))
  | property hs _ _ _ ih => exact ih.trans ((List.suffix_cons _ _).trans (suffix_of_skip hs))
  | noArgument _ => exact (rest_require_suffix _ _ _ _).trans (skip_suffix _)
  | firstArgument _ _ _ ih ih' => exact ih'.trans (ih.trans (skip_suffix _))
  | lastArgument _ => exact rest_require_suffix _ _ _ _
  | lastComma _ _ =>
    exact (rest_require_suffix _ _ _ _).trans ((skip_suffix _).trans (List.suffix_cons _ _))
  | nextArgument _ _ _ _ ih ih' =>
    exact ih'.trans (ih.trans ((skip_suffix _).trans (List.suffix_cons _ _)))

end Partitura.ManuScript.Reader
