import Partitura.ManuScript.Check
import Partitura.Proofs.ManuScript.Grammar

/-!
# What the reader asks of tokens

The reader asks for the kinds of tokens, past the comments before them. Here stand the facts about
that which need no rules of the reader: the levels of operators as parts of the reader, the kinds of
tokens with which phrases start and before which they end, and how a program is read one statement
after another.
-/

namespace Partitura.ManuScript

variable {ts a : List Token} {t : Token} {k : Kind} {n : Nat}

/-- An event that is no error. -/
def Event.isHarmless : Event → Bool
  | .issue d => !d.isError
  | _ => true

namespace Reader

open Grammar

/-! ## Single tokens -/

@[simp] theorem kindAt_cons (t : Token) (r : List Token) : kindAt (t :: r) = t.kind := rfl

theorem skip_of_kindAt (h : kindAt ts ≠ .comment) : skip ts = ts := by
  cases ts with
  | nil => rfl
  | cons t r => rw [skip, List.dropWhile_cons_of_neg (by simpa using h)]

theorem skip_cons (h : t.kind ≠ .comment) (r : List Token) : skip (t :: r) = t :: r :=
  skip_of_kindAt h

/-! ## Levels of operators -/

/-- The part of the reader for the operators of a level, from `or`, which binds least, to products,
and for what they join. -/
def level (fin : Position) (s : Bool) : Nat → (ts : List Token) → Reading 1 ts
  | 0 => disjunction fin s
  | 1 => conjunction fin s
  | 2 => comparison fin s
  | 3 => sum fin s
  | 4 => product fin s
  | _ => unary fin s

theorem length_le_sub_zero (ts : List Token) : ts.length ≤ ts.length - 0 := Nat.le_refl _

/-- Nothing is read. -/
def nothing (ts : List Token) : Reading 0 ts := ⟨[], ts, length_le_sub_zero ts⟩

/-- The part of the reader for what follows the first operand of a level; `lhs` is the name that
stands alone before it. -/
def tail (fin : Position) (s : Bool) : Nat → Option Token → (ts : List Token) → Reading 0 ts
  | 0, _ => disjuncts fin s
  | 1, _ => conjuncts fin s
  | 2, lhs => comparisons fin s lhs
  | 3, _ => summands fin s
  | 4, _ => factors fin s
  | _, _ => nothing

theorem mem_operators_two : k ∈ operators 2 ↔ isComparison k = true := by
  cases k <;> decide

theorem mem_operators_three : k ∈ operators 3 ↔ isAdditive k = true := by
  cases k <;> decide

theorem mem_operators_four : k ∈ operators 4 ↔ isMultiplicative k = true := by
  cases k <;> decide

/-! ## Programs -/

theorem program_of_skip_nil (hs : skip ts = []) (fin : Position) : program fin ts = [] := by
  rw [program]
  split
  · rfl
  · next h => rw [hs] at h; cases h

theorem program_of_skip_cons {r : List Token} (hs : skip ts = t :: r) (fin : Position) :
    program fin ts =
      (statement fin (t :: r)).events ++ program fin (statement fin (t :: r)).rest := by
  rw [program]
  split
  · next h => rw [hs] at h; cases h
  · next h =>
    rw [hs] at h
    cases h
    rfl

/-- The comments at the start do not matter. -/
theorem program_congr {us : List Token} (h : skip ts = skip us) (fin : Position) :
    program fin ts = program fin us := by
  cases hs : skip us with
  | nil => rw [program_of_skip_nil (h.trans hs), program_of_skip_nil hs]
  | cons t r => rw [program_of_skip_cons (h.trans hs), program_of_skip_cons hs]

/-- Where reading statements leaves nothing, they are the whole program. -/
theorem program_eq {fin : Position} (h : (statements fin (skip ts)).rest = []) :
    program fin ts = (statements fin (skip ts)).events := by
  induction hn : ts.length using Nat.strongRecOn generalizing ts with | _ n ih
  have hlen := length_skip_le ts
  cases hs : skip ts with
  | nil => rw [program_of_skip_nil hs, statements, dif_pos (.inr rfl)]
  | cons t r =>
    rw [hs, statements] at h
    rw [program_of_skip_cons hs, statements]
    split at h
    · cases h
    · next hstop =>
      have hlt : (statement fin (t :: r)).rest.length < n := by
        have := (statement fin (t :: r)).bound
        rw [hs] at hlen
        simp only [List.length_cons] at this hlen
        omega
      rw [dif_neg hstop, ih _ hlt h rfl]

end Reader

open Grammar Reader

/-! ## The ends of phrases -/

/-- The kinds with which an access starts. -/
def Reader.linkKinds : List Kind := [.dot, .lparen, .lbracket, .colon]

/-- The kinds with which an expression starts. -/
def Reader.starts : List Kind := signs ++ .lparen :: atoms

/-- Nothing stands here that an expression of level `n` could take in: no access, and no operator
that binds more. -/
structure Stops (n : Nat) (rest : List Token) : Prop where
  comment : kindAt rest ≠ .comment
  link : kindAt rest ∉ linkKinds
  operator : ∀ m, n < m → kindAt rest ∉ operators m

/-- The tokens that stand behind whole expressions. -/
def closers : List Kind := [.semicolon, .rparen, .rbracket, .comma, .kwTo, .lbrace]

theorem closes (h : t.kind = k) (hk : k ∈ closers) (r : List Token) :
    kindAt (t :: r) ∈ closers := by
  rwa [kindAt_cons, h]

theorem lt_of_mem_operators (h : k ∈ operators n) : n < 5 := by
  match n with
  | 0 | 1 | 2 | 3 | 4 => decide
  | _ + 5 => cases h

/-- An operator stands on one level. -/
theorem eq_of_mem_operators {m : Nat} (hm : k ∈ operators m) (hn : k ∈ operators n) : m = n := by
  have hall : ∀ m < 5, ∀ n < 5, ∀ k ∈ operators m, k ∈ operators n → m = n := by decide
  exact hall m (lt_of_mem_operators hm) n (lt_of_mem_operators hn) k hm hn

theorem not_mem_linkKinds_of_operator (h : k ∈ operators n) : k ≠ .comment ∧ k ∉ linkKinds := by
  have hall : ∀ n < 5, ∀ k ∈ operators n, k ≠ .comment ∧ k ∉ linkKinds := by decide
  exact hall n (lt_of_mem_operators h) k h

theorem not_mem_operators_of_closers (h : k ∈ closers) (n : Nat) : k ∉ operators n := by
  have hall : ∀ k ∈ closers, ∀ n < 5, k ∉ operators n := by decide
  exact fun hn => hall k h n (lt_of_mem_operators hn) hn

theorem stops_of_closers {rest : List Token} (h : kindAt rest ∈ closers) (n : Nat) :
    Stops n rest := by
  have hall : ∀ k ∈ closers, k ≠ .comment ∧ k ∉ linkKinds := by decide
  obtain ⟨hcomment, hlink⟩ := hall _ h
  exact ⟨hcomment, hlink, fun m _ => not_mem_operators_of_closers h m⟩

/-- Behind an operator of a level no operator binds more. -/
theorem stops_operator {op : Token} (h : op.kind ∈ operators n) (r : List Token) :
    Stops n (op :: r) := by
  obtain ⟨hcomment, hlink⟩ := not_mem_linkKinds_of_operator h
  refine ⟨hcomment, hlink, fun m hm hop => ?_⟩
  have := eq_of_mem_operators h hop
  omega

theorem Stops.succ {rest : List Token} (h : Stops n rest) : Stops (n + 1) rest :=
  ⟨h.comment, h.link, fun m hm => h.operator m (by omega)⟩

theorem kindAt_append (h : kindAt a ≠ .fin) (rest : List Token) :
    kindAt (a ++ rest) = kindAt a := by
  cases a with
  | nil => exact absurd rfl h
  | cons t r => rfl

theorem ne_nil_of_kindAt (h : kindAt a ≠ .fin) : a ≠ [] := by
  rintro rfl
  exact h rfl

/-- An expression starts with no comment, no token that ends one, and no token that an operator may
not have behind it. -/
theorem not_ends_of_starts (h : k ∈ starts) :
    k ≠ .fin ∧ k ≠ .comment ∧ endsExpression k = false ∧ endsOperand k = false := by
  have hall : ∀ k ∈ starts, k ≠ .fin ∧ k ≠ .comment ∧ endsExpression k = false ∧
      endsOperand k = false := by decide
  exact hall k h

theorem kindAt_append_of_starts (h : kindAt a ∈ starts) (rest : List Token) :
    kindAt (a ++ rest) ∈ starts := by
  rwa [kindAt_append (not_ends_of_starts h).1]

end Partitura.ManuScript
