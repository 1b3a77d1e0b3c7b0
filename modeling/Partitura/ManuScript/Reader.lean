import Partitura.ManuScript.Event

/-!
# Reading the code of a method

A reader of statements and expressions by recursive descent. It never fails: what does not fit the
grammar becomes an issue among the events, and reading goes on. Every construct is read from a list
of tokens, without the one that ends the text, and leaves a list that is no longer; a `Reading k`
has taken at least `k` tokens, as far as there were any.

Where the grammar asks for a token, comments before it are passed over; where an operator may
follow, they are not.
-/

namespace Partitura.ManuScript

/-- The outcome of reading a construct from `ts`: what it says, and the tokens after it. -/
structure Reading (k : Nat) (ts : List Token) where
  events : List Event
  rest : List Token
  bound : rest.length ≤ ts.length - k

/-- The outcome of reading the arguments of a call, with their number. -/
structure Arguments (ts : List Token) extends Reading 0 ts where
  count : Nat

namespace Reader

/-- The kind of the first token. -/
def kindAt : List Token → Kind
  | [] => .fin
  | t :: _ => t.kind

/-- The place of the first token, or the end of the text. -/
def posAt (fin : Position) : List Token → Position
  | [] => fin
  | t :: _ => t.pos

/-- An issue at the first token. -/
def complain (fin : Position) (ts : List Token) (i : Issue) : Event := .issue ⟨posAt fin ts, i⟩

theorem length_le_cons_sub (t : Token) (r : List Token) :
    r.length ≤ (t :: r).length - 1 := Nat.le_refl _

/-- `_skip_comments`: the tokens after the comments at the front. -/
def skip (ts : List Token) : List Token := ts.dropWhile (·.kind == .comment)

theorem length_skip_le (ts : List Token) : (skip ts).length ≤ ts.length :=
  (List.dropWhile_suffix _).length_le

/-- What follows a token of kind `k`, which may stand after comments. -/
def take? (k : Kind) (ts : List Token) : Option { r : List Token // r.length < ts.length } :=
  match h : skip ts with
  | [] => none
  | t :: r =>
    if t.kind = k then
      some ⟨r, by have := length_skip_le ts; rw [h, List.length_cons] at this; omega⟩
    else none

/-- `_skip_block`: what follows the block in which the text stands at the given depth. -/
def leaveBlock : Nat → List Token → List Token
  | 0, ts => ts
  | _ + 1, [] => []
  | d + 1, t :: r =>
    match t.kind with
    | .lbrace => leaveBlock (d + 2) r
    | .rbrace => leaveBlock d r
    | _ => leaveBlock (d + 1) r

theorem length_leaveBlock_le (d : Nat) (ts : List Token) :
    (leaveBlock d ts).length ≤ ts.length := by
  fun_induction leaveBlock d ts <;> simp_all <;> omega

/-- `_recover_to_brace`: goes on after a fault in the head of a statement: passes over everything up
to a brace and, if that opens a block, over the block. -/
def recover (ts : List Token) : List Token :=
  match ts.dropWhile fun t => t.kind != .lbrace && t.kind != .rbrace with
  | [] => []
  | t :: r => if t.kind = .lbrace then leaveBlock 1 r else t :: r

theorem length_recover_le (ts : List Token) : (recover ts).length ≤ ts.length := by
  have h :=
    (List.dropWhile_suffix (l := ts) fun t => t.kind != .lbrace && t.kind != .rbrace).length_le
  unfold recover
  split
  · simp
  · next t r eq =>
    rw [eq, List.length_cons] at h
    have := length_leaveBlock_le 1 r
    split <;> simp <;> omega

/-- A missing part, told without moving. -/
def missing (fin : Position) (what : String) (ts : List Token) : Reading 0 ts :=
  ⟨[complain fin (skip ts) (.expected what)], skip ts, length_skip_le ts⟩

/-- A missing part of the head of a statement, told before going on after the statement. -/
def abandon (fin : Position) (issue : Issue) (ts : List Token) : Reading 0 ts :=
  ⟨[complain fin (skip ts) issue], recover (skip ts),
    Nat.le_trans (length_recover_le _) (length_skip_le ts)⟩

/-- `_expect`: a part that has to follow; reading goes on in any case. -/
def require (fin : Position) (k : Kind) (what : String) (ts : List Token) : Reading 0 ts :=
  match take? k ts with
  | some ⟨r, h⟩ => ⟨[], r, Nat.le_of_lt h⟩
  | none => missing fin what ts

/-- Kinds before which no expression stands. -/
def endsExpression : Kind → Bool
  | .semicolon | .rparen | .rbracket | .comma | .rbrace | .fin => true
  | _ => false

/-- Kinds before which an operator lacks its operand. -/
def endsOperand : Kind → Bool
  | .semicolon | .rparen | .fin => true
  | _ => false

/-- The operators of comparison. -/
def isComparison : Kind → Bool
  | .assign | .neq | .lt | .gt | .lte | .gte => true
  | _ => false

/-- The operators of sums. -/
def isAdditive : Kind → Bool
  | .plus | .minus | .ampersand => true
  | _ => false

/-- The operators of products. -/
def isMultiplicative : Kind → Bool
  | .star | .slash | .percent => true
  | _ => false

/-- The identifier that was all that was read between two points. -/
def alone? (before after : List Token) : Option Token :=
  match before with
  | [] => none
  | t :: r => if r.length = after.length ∧ t.kind = .identifier then some t else none

/-- The complaint about a comparison of a name with itself. -/
def comparedToSelf (op : Token) (lhs rhs : Option Token) : List Event :=
  match lhs, rhs with
  | some a, some b =>
    if a.text = b.text then
      let outcome :=
        match op.kind with
        | .assign | .lte | .gte => "true"
        | _ => "false"
      [.issue ⟨op.pos, .selfComparison a.text op.text outcome⟩]
    else []
  | _, _ => []

/-- `_check_constant_condition`: the complaint about a constant as the condition of an `if`. -/
def constantCondition : List Token → List Event
  | [] => []
  | t :: _ =>
    match t.kind with
    | .kwTrue => [.issue ⟨t.pos, .constantCondition "true; 'else' branch will never execute"⟩]
    | .kwFalse => [.issue ⟨t.pos, .constantCondition "false; 'if' body will never execute"⟩]
    | .number =>
      if t.text = "0" then
        [.issue ⟨t.pos, .constantCondition "false (0); 'if' body will never execute"⟩]
      else
        [.issue ⟨t.pos,
          .constantCondition ("true (" ++ t.text ++ "); 'else' branch will never execute")⟩]
    | _ => []

/-- The complaint about a division by the constant zero. -/
def zeroDivisor (op : Token) : List Token → List Event
  | [] => []
  | t :: _ =>
    if t.kind = .number ∧ t.text = "0" then
      match op.kind with
      | .slash => [.issue ⟨t.pos, .zeroDivisor "Division"⟩]
      | .percent => [.issue ⟨t.pos, .zeroDivisor "Modulo"⟩]
      | _ => []
    else []

/-- The target of an assignment and the complaint about an assignment to itself, if the tokens start
with a name and the sign of assignment. -/
def assignmentTarget : List Token → List Event
  | t :: s :: r =>
    if t.kind = .identifier ∧ s.kind = .assign then
      .assigned t ::
        match r with
        | u :: v :: _ =>
          if u.kind = .identifier ∧ u.text = t.text ∧ v.kind = .semicolon then
            [.issue ⟨t.pos, .selfAssignment t.text⟩]
          else []
        | _ => []
    else []
  | _ => []

/-- The name that stands first in a chain of accesses, and the receiver that it may be. -/
def chainHead : List Token → Option String × Option Token
  | [] => (none, none)
  | t :: r =>
    if t.kind = .identifier then
      (if kindAt r = .dot then some t.text else none, some t)
    else (none, none)

/-- The call of the name that was read last, if there is one. -/
def callOf (receiver : Option String) (last : Option Token) (count : Nat) : List Event :=
  match last with
  | some name => [.called receiver name count]
  | none => []

/-- Access to a member that is not called. -/
def accessOf (receiver : Option String) (name : Token) : List Event :=
  match receiver with
  | some object => [.accessed object name]
  | none => []

mutual

/-- `_parse_expression`: an expression. `asStatement` says that it stands as a statement of its own,
so that a name before a sign of assignment is assigned and not compared. -/
def expression (fin : Position) (asStatement : Bool) (ts : List Token) : Reading 0 ts :=
  have hs := length_skip_le ts
  if endsExpression (kindAt (skip ts)) then
    ⟨[complain fin (skip ts) .missingExpression], skip ts, hs⟩
  else
    match operation fin asStatement (skip ts) with
    | ⟨e, r, h⟩ => ⟨e, r, by omega⟩
termination_by 32 * ts.length + 14

/-- An expression that is not empty. A sign of assignment that is left over is read as another
assignment. -/
def operation (fin : Position) (asStatement : Bool) (ts : List Token) : Reading 1 ts :=
  let target := if asStatement then assignmentTarget ts else []
  match disjunction fin asStatement ts with
  | ⟨e, r, h⟩ =>
    match take? .assign r with
    | none => ⟨target ++ e, skip r, by have := length_skip_le r; omega⟩
    | some ⟨u, hu⟩ =>
      have hs := length_skip_le u
      if endsOperand (kindAt (skip u)) then
        ⟨target ++ e ++ [complain fin (skip u) .missingValue], skip u, by omega⟩
      else
        match operation fin asStatement (skip u) with
        | ⟨e', r', h'⟩ => ⟨target ++ e ++ e', r', by omega⟩
termination_by 32 * ts.length + 13

/-- `_parse_or_expr`: operands joined by `or`. -/
def disjunction (fin : Position) (asStatement : Bool) (ts : List Token) : Reading 1 ts :=
  match conjunction fin asStatement ts with
  | ⟨e, r, h⟩ =>
    match disjuncts fin asStatement r with
    | ⟨e', r', h'⟩ => ⟨e ++ e', r', by omega⟩
termination_by 32 * ts.length + 12

/-- The further operands of `or`. -/
def disjuncts (fin : Position) (asStatement : Bool) (ts : List Token) : Reading 0 ts :=
  match ts with
  | [] => ⟨[], [], Nat.le_refl _⟩
  | t :: r =>
    if t.kind = .kwOr then
      match conjunction fin asStatement r with
      | ⟨e, u, h⟩ =>
        match disjuncts fin asStatement u with
        | ⟨e', u', h'⟩ => ⟨e ++ e', u', by simp only [List.length_cons]; omega⟩
    else ⟨[], t :: r, Nat.le_refl _⟩
termination_by 32 * ts.length + 11

/-- `_parse_and_expr`: operands joined by `and`. -/
def conjunction (fin : Position) (asStatement : Bool) (ts : List Token) : Reading 1 ts :=
  match comparison fin asStatement ts with
  | ⟨e, r, h⟩ =>
    match conjuncts fin asStatement r with
    | ⟨e', r', h'⟩ => ⟨e ++ e', r', by omega⟩
termination_by 32 * ts.length + 10

/-- The further operands of `and`. -/
def conjuncts (fin : Position) (asStatement : Bool) (ts : List Token) : Reading 0 ts :=
  match ts with
  | [] => ⟨[], [], Nat.le_refl _⟩
  | t :: r =>
    if t.kind = .kwAnd then
      match comparison fin asStatement r with
      | ⟨e, u, h⟩ =>
        match conjuncts fin asStatement u with
        | ⟨e', u', h'⟩ => ⟨e ++ e', u', by simp only [List.length_cons]; omega⟩
    else ⟨[], t :: r, Nat.le_refl _⟩
termination_by 32 * ts.length + 9

/-- `_parse_comparison`: a chain of comparisons. -/
def comparison (fin : Position) (asStatement : Bool) (ts : List Token) : Reading 1 ts :=
  match sum fin asStatement ts with
  | ⟨e, r, h⟩ =>
    match comparisons fin asStatement (alone? ts r) r with
    | ⟨e', r', h'⟩ => ⟨e ++ e', r', by omega⟩
termination_by 32 * ts.length + 8

/-- The further members of a chain of comparisons; `lhs` is the name that stands alone before the
operator. -/
def comparisons (fin : Position) (asStatement : Bool) (lhs : Option Token) (ts : List Token) :
    Reading 0 ts :=
  match ts with
  | [] => ⟨[], [], Nat.le_refl _⟩
  | op :: r =>
    if isComparison op.kind then
      match sum fin asStatement r with
      | ⟨e, u, h⟩ =>
        match comparisons fin asStatement (alone? r u) u with
        | ⟨e', u', h'⟩ =>
          ⟨e ++ comparedToSelf op lhs (alone? r u) ++ e',
            u', by simp only [List.length_cons]; omega⟩
    else ⟨[], op :: r, Nat.le_refl _⟩
termination_by 32 * ts.length + 7

/-- `_parse_additive`: a sum. -/
def sum (fin : Position) (asStatement : Bool) (ts : List Token) : Reading 1 ts :=
  match product fin asStatement ts with
  | ⟨e, r, h⟩ =>
    match summands fin asStatement r with
    | ⟨e', r', h'⟩ => ⟨e ++ e', r', by omega⟩
termination_by 32 * ts.length + 6

/-- The further members of a sum. -/
def summands (fin : Position) (asStatement : Bool) (ts : List Token) : Reading 0 ts :=
  match ts with
  | [] => ⟨[], [], Nat.le_refl _⟩
  | op :: r =>
    if isAdditive op.kind then
      have hs := length_skip_le r
      if endsOperand (kindAt (skip r)) then
        ⟨[complain fin (skip r) .missingOperand], skip r, by simp only [List.length_cons]; omega⟩
      else
        match product fin asStatement (skip r) with
        | ⟨e, u, h⟩ =>
          match summands fin asStatement u with
          | ⟨e', u', h'⟩ => ⟨e ++ e', u', by simp only [List.length_cons]; omega⟩
    else ⟨[], op :: r, Nat.le_refl _⟩
termination_by 32 * ts.length + 5

/-- `_parse_multiplicative`: a product. -/
def product (fin : Position) (asStatement : Bool) (ts : List Token) : Reading 1 ts :=
  match unary fin asStatement ts with
  | ⟨e, r, h⟩ =>
    match factors fin asStatement r with
    | ⟨e', r', h'⟩ => ⟨e ++ e', r', by omega⟩
termination_by 32 * ts.length + 4

/-- The further members of a product. -/
def factors (fin : Position) (asStatement : Bool) (ts : List Token) : Reading 0 ts :=
  match ts with
  | [] => ⟨[], [], Nat.le_refl _⟩
  | op :: r =>
    if isMultiplicative op.kind then
      have hs := length_skip_le r
      if endsOperand (kindAt (skip r)) then
        ⟨[complain fin (skip r) .missingOperand], skip r, by simp only [List.length_cons]; omega⟩
      else
        match unary fin asStatement (skip r) with
        | ⟨e, u, h⟩ =>
          match factors fin asStatement u with
          | ⟨e', u', h'⟩ =>
            ⟨zeroDivisor op (skip r) ++ e ++ e', u', by simp only [List.length_cons]; omega⟩
    else ⟨[], op :: r, Nat.le_refl _⟩
termination_by 32 * ts.length + 3

/-- `_parse_unary`: a chain of accesses after any number of `not` and minus signs. -/
def unary (fin : Position) (asStatement : Bool) (ts : List Token) : Reading 1 ts :=
  match ts with
  | [] => chain fin asStatement []
  | t :: r =>
    if t.kind = .kwNot ∨ t.kind = .minus then
      match unary fin asStatement r with
      | ⟨e, u, h⟩ => ⟨e, u, by simp only [List.length_cons]; omega⟩
    else chain fin asStatement (t :: r)
termination_by 32 * ts.length + 2

/-- `_parse_postfix`: an operand with the calls, members and indices that follow it. -/
def chain (fin : Position) (asStatement : Bool) (ts : List Token) : Reading 1 ts :=
  match operand fin asStatement ts with
  | ⟨e, r, h⟩ =>
    match links fin asStatement (chainHead ts).1 (chainHead ts).2 r with
    | ⟨e', r', h'⟩ => ⟨e ++ e', r', by omega⟩
termination_by 32 * ts.length + 1

/-- The calls, members and indices that follow an operand. -/
def links (fin : Position) (asStatement : Bool) (receiver : Option String) (last : Option Token)
    (ts : List Token) : Reading 0 ts :=
  match hs : skip ts with
  | [] => ⟨[], [], Nat.zero_le _⟩
  | t :: r =>
    have hl : r.length < ts.length := by
      have := length_skip_le ts
      rw [hs, List.length_cons] at this
      omega
    match t.kind with
    | .dot =>
      match hr : skip r with
      | [] =>
        ⟨[complain fin [] (.missingName "property or method name after '.'")], [], Nat.zero_le _⟩
      | u :: w =>
        have hw : w.length < r.length := by
          have := length_skip_le r
          rw [hr, List.length_cons] at this
          omega
        if u.kind = .identifier then
          have hk := length_skip_le w
          if kindAt (skip w) = .lparen then
            match links fin asStatement receiver (some u) (skip w) with
            | ⟨e, v, h⟩ => ⟨e, v, by omega⟩
          else
            match links fin asStatement none (some u) (skip w) with
            | ⟨e, v, h⟩ => ⟨accessOf receiver u ++ e, v, by omega⟩
        else
          ⟨[complain fin (u :: w) (.missingName "property or method name after '.'")], u :: w,
            by simp only [List.length_cons]; omega⟩
    | .lparen =>
      match arguments fin asStatement r with
      | ⟨⟨e, u, h⟩, n⟩ =>
        match links fin asStatement none none u with
        | ⟨e', v, h'⟩ => ⟨e ++ callOf receiver last n ++ e', v, by omega⟩
    | .lbracket =>
      match expression fin asStatement r with
      | ⟨e, u, h⟩ =>
        match require fin .rbracket "']' after index" u with
        | ⟨e₁, u₁, h₁⟩ =>
          match links fin asStatement none none u₁ with
          | ⟨e', v, h'⟩ => ⟨e ++ e₁ ++ e', v, by omega⟩
    | .colon =>
      match r with
      | [] => ⟨[complain fin [] (.missingName "property name after ':'")], [], Nat.zero_le _⟩
      | u :: w =>
        have hw : w.length < ts.length := by simp only [List.length_cons] at hl; omega
        if u.kind = .identifier then
          match links fin asStatement none none w with
          | ⟨e, v, h⟩ => ⟨e, v, by omega⟩
        else
          ⟨[complain fin (u :: w) (.missingName "property name after ':'")], u :: w, by omega⟩
    | _ => ⟨[], t :: r, by simp only [List.length_cons]; omega⟩
termination_by 32 * ts.length

/-- `_parse_call_args`: the arguments of a call, after its opening parenthesis, with the closing
one. -/
def arguments (fin : Position) (asStatement : Bool) (ts : List Token) : Arguments ts :=
  have hs := length_skip_le ts
  if kindAt (skip ts) = .rparen then
    match require fin .rparen "')' to close function call" (skip ts) with
    | ⟨e, r, h⟩ => ⟨⟨e, r, by omega⟩, 0⟩
  else
    match expression fin asStatement (skip ts) with
    | ⟨e, r, h⟩ =>
      match moreArguments fin asStatement 1 r with
      | ⟨⟨e', r', h'⟩, n⟩ => ⟨⟨e ++ e', r', by omega⟩, n⟩
termination_by 32 * ts.length + 16

/-- The arguments of a call after the first `n`, with the closing parenthesis. -/
def moreArguments (fin : Position) (asStatement : Bool) (n : Nat) (ts : List Token) :
    Arguments ts :=
  match ts with
  | [] => ⟨missing fin "')' to close function call" [], n⟩
  | t :: r =>
    if t.kind = .comma then
      have hs := length_skip_le r
      if kindAt (skip r) = .rparen then
        match require fin .rparen "')' to close function call" (skip r) with
        | ⟨e, u, h⟩ => ⟨⟨e, u, by simp only [List.length_cons]; omega⟩, n⟩
      else
        match expression fin asStatement (skip r) with
        | ⟨e, u, h⟩ =>
          match moreArguments fin asStatement (n + 1) u with
          | ⟨⟨e', u', h'⟩, m⟩ => ⟨⟨e ++ e', u', by simp only [List.length_cons]; omega⟩, m⟩
    else ⟨require fin .rparen "')' to close function call" (t :: r), n⟩
termination_by 32 * ts.length + 15

/-- `_parse_primary`: a literal, a name, or an expression in parentheses. -/
def operand (fin : Position) (asStatement : Bool) (ts : List Token) : Reading 1 ts :=
  match hs : skip ts with
  | [] => ⟨[complain fin [] (.unexpectedToken "")], [], Nat.zero_le _⟩
  | t :: r =>
    have hl : r.length < ts.length := by
      have := length_skip_le ts
      rw [hs, List.length_cons] at this
      omega
    match t.kind with
    | .number | .string | .kwTrue | .kwFalse | .kwNull | .invalid => ⟨[], r, by omega⟩
    | .identifier =>
      ⟨[.read t (kindAt r == .lparen || kindAt r == .dot)], r, by omega⟩
    | .lparen =>
      match expression fin asStatement r with
      | ⟨e, u, h⟩ =>
        match require fin .rparen "')' after expression" u with
        | ⟨e', v, h'⟩ => ⟨e ++ e', v, by omega⟩
    | _ => ⟨[complain fin (t :: r) (.unexpectedToken t.text)], r, by omega⟩
termination_by 32 * ts.length

end

/-- `_parse_return`: a `return`, after its keyword. -/
def returned (fin : Position) (ts : List Token) : Reading 0 ts :=
  have hs := length_skip_le ts
  match kindAt (skip ts) with
  | .semicolon | .rbrace | .fin =>
    match require fin .semicolon "';' after return statement" (skip ts) with
    | ⟨e, r, h⟩ => ⟨e ++ [.returned], r, by omega⟩
  | _ =>
    match expression fin false (skip ts) with
    | ⟨e, r, h⟩ =>
      match require fin .semicolon "';' after return statement" r with
      | ⟨e', r', h'⟩ => ⟨e ++ e' ++ [.returned], r', by omega⟩

/-- What ends an expression that stands as a statement. -/
def terminator (ts : List Token) : Reading 0 ts :=
  match hs : skip ts with
  | [] => ⟨[], [], Nat.zero_le _⟩
  | t :: r =>
    have hl : r.length < ts.length := by
      have := length_skip_le ts
      rw [hs, List.length_cons] at this
      omega
    match t.kind with
    | .rbrace => ⟨[], t :: r, by simp only [List.length_cons]; omega⟩
    | .identifier | .kwIf | .kwWhile | .kwFor | .kwReturn =>
      ⟨[.issue ⟨t.pos, .missingSemicolon⟩], t :: r, by simp only [List.length_cons]; omega⟩
    | _ => ⟨[], r, by omega⟩

/-- `_parse_expression_statement`: an expression as a statement, from its first token `t` on. A
token that ends an expression is complained about and passed over. -/
def simple (fin : Position) (t : Token) (r : List Token) : Reading 1 (t :: r) :=
  if endsExpression t.kind then ⟨[.issue ⟨t.pos, .missingExpression⟩], r, length_le_cons_sub t r⟩
  else
    match operation fin true (t :: r) with
    | ⟨e, u, h⟩ =>
      match terminator u with
      | ⟨e', v, h'⟩ => ⟨e ++ e', v, by omega⟩

mutual

/-- `_parse_statement`: a statement. -/
def statement (fin : Position) (ts : List Token) : Reading 1 ts :=
  match hs : skip ts with
  | [] => ⟨[], [], Nat.zero_le _⟩
  | t :: r =>
    have hl : r.length < ts.length := by
      have := length_skip_le ts
      rw [hs, List.length_cons] at this
      omega
    match t.kind with
    | .rbrace => ⟨[.issue ⟨t.pos, .strayBrace⟩], r, by omega⟩
    | .semicolon => ⟨[.statement t.pos, .issue ⟨t.pos, .emptyStatement⟩], r, by omega⟩
    | .kwIf =>
      match conditional fin r with
      | ⟨e, u, h⟩ => ⟨.statement t.pos :: e, u, by omega⟩
    | .kwWhile =>
      match guarded fin "'(' after 'while'" "')' after while condition" "while" r with
      | ⟨e, u, h⟩ => ⟨.statement t.pos :: e, u, by omega⟩
    | .kwFor =>
      have hk := length_skip_le r
      match loop fin (skip r) with
      | ⟨e, u, h⟩ => ⟨.statement t.pos :: e, u, by omega⟩
    | .kwSwitch =>
      match switch fin r with
      | ⟨e, u, h⟩ => ⟨.statement t.pos :: e, u, by omega⟩
    | .kwReturn =>
      match returned fin r with
      | ⟨e, u, h⟩ => ⟨.statement t.pos :: e, u, by omega⟩
    | .lbrace =>
      match block fin r with
      | ⟨e, u, h⟩ => ⟨.statement t.pos :: e, u, by omega⟩
    | _ =>
      match simple fin t r with
      | ⟨e, u, h⟩ => ⟨.statement t.pos :: e, u, by simp only [List.length_cons] at h; omega⟩
termination_by 8 * ts.length

/-- The statements up to a closing brace or the end of the text. -/
def statements (fin : Position) (ts : List Token) : Reading 0 ts :=
  if h : kindAt ts = .rbrace ∨ ts = [] then ⟨[], ts, Nat.le_refl _⟩
  else
    have hp : 0 < ts.length := List.length_pos_iff.2 fun e => h (.inr e)
    match statement fin ts with
    | ⟨e, r, h₁⟩ =>
      have hs := length_skip_le r
      match statements fin (skip r) with
      | ⟨e', r', h₂⟩ => ⟨e ++ e', r', by omega⟩
termination_by 8 * ts.length + 1

/-- `_parse_block`: a block, after its opening brace. -/
def block (fin : Position) (ts : List Token) : Reading 0 ts :=
  match statements fin ts with
  | ⟨e, r, h⟩ =>
    match require fin .rbrace "'\x7d' to close block" r with
    | ⟨e', r', h'⟩ => ⟨.opened :: e ++ e' ++ [.closed], r', by omega⟩
termination_by 8 * ts.length + 2

/-- `_parse_required_block`: the block that has to follow the head of a statement. -/
def ownedBlock (fin : Position) (owner : String) (ts : List Token) : Reading 0 ts :=
  match take? .lbrace ts with
  | none => ⟨[complain fin (skip ts) (.missingBlock owner)], skip ts, length_skip_le ts⟩
  | some ⟨r, hr⟩ =>
    match block fin r with
    | ⟨e, u, h⟩ => ⟨e, u, by omega⟩
termination_by 8 * ts.length + 2

/-- A condition in parentheses and the block that it guards. -/
def guarded (fin : Position) (opening closing owner : String) (ts : List Token) : Reading 0 ts :=
  match take? .lparen ts with
  | none => abandon fin (.expected opening) ts
  | some ⟨r, hr⟩ =>
    match expression fin false r with
    | ⟨e, u, h⟩ =>
      match take? .rparen u with
      | none =>
        match abandon fin (.expected closing) u with
        | ⟨e', u', h'⟩ => ⟨e ++ e', u', by omega⟩
      | some ⟨v, hv⟩ =>
        match ownedBlock fin owner v with
        | ⟨e', u', h'⟩ => ⟨e ++ e', u', by omega⟩
termination_by 8 * ts.length + 3

/-- `_parse_if`: an `if`, after its keyword. -/
def conditional (fin : Position) (ts : List Token) : Reading 0 ts :=
  match take? .lparen ts with
  | none => abandon fin (.expected "'(' after 'if'") ts
  | some ⟨r, hr⟩ =>
    match expression fin false r with
    | ⟨e, u, h⟩ =>
      match take? .rparen u with
      | none =>
        match abandon fin (.expected "')' after if condition") u with
        | ⟨e', u', h'⟩ => ⟨constantCondition (skip r) ++ e ++ e', u', by omega⟩
      | some ⟨v, hv⟩ =>
        match ownedBlock fin "if" v with
        | ⟨e', w, h'⟩ =>
          if kindAt (skip v) = .lbrace then
            match alternative fin w with
            | ⟨e'', w', h''⟩ => ⟨constantCondition (skip r) ++ e ++ e' ++ e'', w', by omega⟩
          else ⟨constantCondition (skip r) ++ e ++ e', w, by omega⟩
termination_by 8 * ts.length + 3

/-- What may follow the block of an `if`. -/
def alternative (fin : Position) (ts : List Token) : Reading 0 ts :=
  match take? .kwElse ts with
  | none => ⟨[], skip ts, length_skip_le ts⟩
  | some ⟨r, hr⟩ =>
    match take? .kwIf r with
    | some ⟨u, hu⟩ =>
      match conditional fin u with
      | ⟨e, v, h⟩ => ⟨e, v, by omega⟩
    | none =>
      match ownedBlock fin "else" r with
      | ⟨e, v, h⟩ => ⟨e, v, by omega⟩
termination_by 8 * ts.length + 3

/-- `_parse_while`: a loop, after its keyword and any comments. -/
def loop (fin : Position) (ts : List Token) : Reading 0 ts :=
  match ts with
  | [] => abandon fin (.loopHead "variable name after 'for'") []
  | t :: r =>
    match t.kind with
    | .kwEach =>
      match each fin r with
      | ⟨e, u, h⟩ => ⟨e, u, by simp only [List.length_cons]; omega⟩
    | .identifier =>
      match counted fin r with
      | ⟨e, u, h⟩ => ⟨.bound t.text :: e, u, by simp only [List.length_cons]; omega⟩
    | _ => abandon fin (.loopHead "variable name after 'for'") (t :: r)
termination_by 8 * ts.length + 4

/-- `_parse_for_to`: a counting loop, after its variable. -/
def counted (fin : Position) (ts : List Token) : Reading 0 ts :=
  match take? .assign ts with
  | none => abandon fin (.expected "'=' in for statement") ts
  | some ⟨r, hr⟩ =>
    match expression fin false r with
    | ⟨e, u, h⟩ =>
      match take? .kwTo u with
      | none =>
        match abandon fin (.expected "'to' in for statement") u with
        | ⟨e', u', h'⟩ => ⟨e ++ e', u', by omega⟩
      | some ⟨v, hv⟩ =>
        match expression fin false v with
        | ⟨e₁, w, h₁⟩ =>
          match ownedBlock fin "for" w with
          | ⟨e₂, w', h₂⟩ => ⟨e ++ e₁ ++ e₂, w', by omega⟩
termination_by 8 * ts.length + 3

/-- `_parse_for_each`: a loop over a collection, after the word `each`: an optional type, the
variable, and what it runs over. -/
def each (fin : Position) (ts : List Token) : Reading 0 ts :=
  match hs : skip ts with
  | [] => abandon fin (.loopHead "variable name in for each statement") ts
  | t :: r =>
    have hl : r.length < ts.length := by
      have := length_skip_le ts
      rw [hs, List.length_cons] at this
      omega
    if t.kind = .identifier then
      match hr : skip r with
      | [] =>
        match abandon fin (.loopHead "'in' in for each statement") r with
        | ⟨e, u, h⟩ => ⟨e, u, by omega⟩
      | u :: w =>
        have hw : w.length < r.length := by
          have := length_skip_le r
          rw [hr, List.length_cons] at this
          omega
        match u.kind with
        | .identifier =>
          match collection fin w with
          | ⟨e, v, h⟩ => ⟨.bound u.text :: e, v, by omega⟩
        | .kwIn =>
          match collection fin (u :: w) with
          | ⟨e, v, h⟩ => ⟨.bound t.text :: e, v, by simp only [List.length_cons] at h; omega⟩
        | _ =>
          match abandon fin (.loopHead "'in' in for each statement") r with
          | ⟨e, v, h⟩ => ⟨e, v, by omega⟩
    else abandon fin (.loopHead "variable name in for each statement") ts
termination_by 8 * ts.length + 4

/-- What a loop runs over, from the word `in`, and the block of the loop. -/
def collection (fin : Position) (ts : List Token) : Reading 0 ts :=
  match take? .kwIn ts with
  | none => abandon fin (.expected "'in' in for each statement") ts
  | some ⟨r, hr⟩ =>
    match expression fin false r with
    | ⟨e, u, h⟩ =>
      match ownedBlock fin "for each" u with
      | ⟨e', v, h'⟩ => ⟨e ++ e', v, by omega⟩
termination_by 8 * ts.length + 3

/-- `_parse_switch`: a `switch`, after its keyword. -/
def switch (fin : Position) (ts : List Token) : Reading 0 ts :=
  match take? .lparen ts with
  | none => abandon fin (.expected "'(' after 'switch'") ts
  | some ⟨r, hr⟩ =>
    match expression fin false r with
    | ⟨e, u, h⟩ =>
      match take? .rparen u with
      | none =>
        match abandon fin (.expected "')' after switch expression") u with
        | ⟨e', u', h'⟩ => ⟨e ++ e', u', by omega⟩
      | some ⟨v, hv⟩ =>
        match take? .lbrace v with
        | none =>
          match missing fin "'\x7b' for switch body" v with
          | ⟨e', u', h'⟩ => ⟨e ++ e', u', by omega⟩
        | some ⟨w, hw⟩ =>
          match entries fin w with
          | ⟨e₁, w₁, h₁⟩ =>
            match require fin .rbrace "'\x7d' to close switch" w₁ with
            | ⟨e₂, w₂, h₂⟩ => ⟨e ++ e₁ ++ e₂, w₂, by omega⟩
termination_by 8 * ts.length + 3

/-- The entries of a `switch` up to its closing brace. -/
def entries (fin : Position) (ts : List Token) : Reading 0 ts :=
  match hs : skip ts with
  | [] => ⟨[], [], Nat.zero_le _⟩
  | t :: r =>
    have hl : r.length < ts.length := by
      have := length_skip_le ts
      rw [hs, List.length_cons] at this
      omega
    match t.kind with
    | .rbrace => ⟨[], t :: r, by simp only [List.length_cons]; omega⟩
    | .kwCase =>
      match guarded fin "'(' after 'case'" "')' after case expression" "case" r with
      | ⟨e, u, h⟩ =>
        match entries fin u with
        | ⟨e', v, h'⟩ => ⟨e ++ e', v, by omega⟩
    | .kwDefault =>
      match ownedBlock fin "default" r with
      | ⟨e, u, h⟩ =>
        match entries fin u with
        | ⟨e', v, h'⟩ => ⟨e ++ e', v, by omega⟩
    | _ =>
      match entries fin r with
      | ⟨e, v, h⟩ => ⟨.issue ⟨t.pos, .switchEntry⟩ :: e, v, by omega⟩
termination_by 8 * ts.length + 2

end

/-- All statements of a text. A closing brace that no block has opened is passed over. -/
def program (fin : Position) (ts : List Token) : List Event :=
  match hs : skip ts with
  | [] => []
  | t :: r =>
    have hl : r.length < ts.length := by
      have := length_skip_le ts
      rw [hs, List.length_cons] at this
      omega
    match statement fin (t :: r) with
    | ⟨e, u, h⟩ =>
      have hu : u.length < ts.length := by simp only [List.length_cons] at h; omega
      e ++ program fin u
termination_by ts.length

end Reader

end Partitura.ManuScript
