import Partitura.Proofs.ManuScript.Conclusions

/-!
# What the tokens of a program are to its names

In a program a name can be read, be the target of an assignment, or be the variable of a loop;
elsewhere it only selects a member or names a type. `Tree.marked` gives every token of a tree its
`Role`. The roles and the order of the tokens are all that the analysis knows about the names of a
program (`names_tells`): what the tree tells about names is `told` token by token.

An assignment is told by the first two tokens of an expression that stands as a statement. Such an
expression has parts in which a sign of assignment is told in the same way although it compares
there; a name at that place has the role `nested`.
-/

namespace Partitura.ManuScript

open Grammar Reader

/-! ## Roles -/

/-- What a token is to the names of a program. -/
inductive Role where
  /-- A name that stands as an operand. -/
  | operand
  /-- A name that stands as the target of an assignment. -/
  | target
  /-- A name before a sign of assignment, at the start of parentheses, an argument or an index in a
  statement. -/
  | nested
  /-- The variable of a loop. -/
  | loop
  /-- Every other token. -/
  | other
deriving DecidableEq, Repr

namespace Role

/-- The token is a name in the place of an operand. -/
def isOperand : Role → Bool
  | operand | target | nested => true
  | loop | other => false

/-- The token is told as the target of an assignment. -/
def assigns : Role → Bool
  | target | nested => true
  | operand | loop | other => false

/-- The token is told as giving its name a value. -/
def binds : Role → Bool
  | target | nested | loop => true
  | operand | other => false

/-- The token gives its name a value. -/
def defines : Role → Bool
  | target | loop => true
  | operand | nested | other => false

/-- The role of a token that stands alone as an operand. -/
def ofOperand (t : Token) : Role := if t.kind = .identifier then .operand else .other

/-- What a token tells about names, before a token of the kind `k`. -/
def tells (t : Token) (k : Kind) : Role → List Event
  | operand => [mentioned t k]
  | target | nested => [.assigned t, mentioned t k]
  | loop => [.bound t.text]
  | other => []

theorem isOperand_of_assigns {ρ : Role} (h : ρ.assigns = true) : ρ.isOperand = true := by
  cases ρ with
  | target | nested => rfl
  | operand | loop | other => cases h

end Role

/-- A token that is nothing to the names. -/
def plain (t : Token) : Token × Role := (t, .other)

@[simp] theorem fst_plain (t : Token) : (plain t).1 = t := rfl

/-- Gives the first token the role `ρ` if it is a name before the sign of assignment. -/
def promote (ρ : Role) : List (Token × Role) → List (Token × Role)
  | x :: e :: ms =>
    if x.1.kind = .identifier ∧ e.1.kind = .assign then (x.1, ρ) :: e :: ms else x :: e :: ms
  | ms => ms

/-- The roles in an expression within another one; `s` says that the outer one stands as a
statement. -/
def within (s : Bool) (ms : List (Token × Role)) : List (Token × Role) :=
  if s then promote .nested ms else ms

/-- The tokens of a tree with their roles. `s` says that the tree is an expression, or part of one,
that stands as a statement. -/
@[simp] def Grammar.Tree.marked : {σ : Symbol} → Tree σ → Bool → List (Token × Role)
  | _, .atom t, _ => [(t.1, .ofOperand t.1)]
  | _, .group l a r, s => plain l.1 :: (within s (a.marked s) ++ [plain r.1])
  | _, .member a d i, s => a.marked s ++ [plain d.1, plain i.1]
  | _, .call a l b r, s => a.marked s ++ plain l.1 :: (b.marked s ++ [plain r.1])
  | _, .index a l b r, s => a.marked s ++ plain l.1 :: (within s (b.marked s) ++ [plain r.1])
  | _, .property a c i, s => a.marked s ++ [plain c.1, plain i.1]
  | _, .link a, s => a.marked s
  | _, .sign t a, s => plain t.1 :: a.marked s
  | _, .operand _ a, s => a.marked s
  | _, .operation a op b, s => a.marked s ++ plain op.1 :: b.marked s
  | _, .noArgument, _ => []
  | _, .firstArgument a b, s => within s (a.marked s) ++ b.marked s
  | _, .lastArgument, _ => []
  | _, .nextArgument c a b, s => plain c.1 :: (within s (a.marked s) ++ b.marked s)
  | _, .block l a r, s => plain l.1 :: (a.marked s ++ [plain r.1])
  | _, .noStatement, _ => []
  | _, .nextStatement a b, s => a.marked s ++ b.marked s
  | _, .empty c, _ => [plain c.1]
  | _, .simple a c, _ => promote .target (a.marked true) ++ [plain c.1]
  | _, .nested a, s => a.marked s
  | _, .returnNothing k c, _ => [plain k.1, plain c.1]
  | _, .returnValue k a c, _ => plain k.1 :: (a.marked false ++ [plain c.1])
  | _, .ifThen k a, s => plain k.1 :: a.marked s
  | _, .whileDo k l a r b, s =>
    plain k.1 :: plain l.1 :: (a.marked false ++ plain r.1 :: b.marked s)
  | _, .forTo k x e a t b c, s =>
    plain k.1 :: (x.1, .loop) :: plain e.1 ::
      (a.marked false ++ plain t.1 :: (b.marked false ++ c.marked s))
  | _, .forEach k e x i a b, s =>
    plain k.1 :: plain e.1 :: (x.1, .loop) :: plain i.1 :: (a.marked false ++ b.marked s)
  | _, .forEachTyped k e t x i a b, s =>
    plain k.1 :: plain e.1 :: plain t.1 :: (x.1, .loop) :: plain i.1 ::
      (a.marked false ++ b.marked s)
  | _, .switch k l a r o b c, s =>
    plain k.1 :: plain l.1 ::
      (a.marked false ++ plain r.1 :: plain o.1 :: (b.marked s ++ [plain c.1]))
  | _, .conditional l a r b c, s =>
    plain l.1 :: (a.marked false ++ plain r.1 :: (b.marked s ++ c.marked s))
  | _, .noElse, _ => []
  | _, .otherwise e b, s => plain e.1 :: b.marked s
  | _, .otherwiseIf e i a, s => plain e.1 :: plain i.1 :: a.marked s
  | _, .noEntry, _ => []
  | _, .caseEntry k l a r b c, s =>
    plain k.1 :: plain l.1 :: (a.marked false ++ plain r.1 :: (b.marked s ++ c.marked s))
  | _, .defaultEntry k b c, s => plain k.1 :: (b.marked s ++ c.marked s)

section Roles

variable {s : Bool} {ρ : Role} {ms : List (Token × Role)}

@[simp] theorem map_fst_promote (ρ : Role) (ms : List (Token × Role)) :
    (promote ρ ms).map Prod.fst = ms.map Prod.fst := by
  unfold promote
  split
  · split <;> rfl
  · rfl

@[simp] theorem map_fst_within (s : Bool) (ms : List (Token × Role)) :
    (within s ms).map Prod.fst = ms.map Prod.fst := by
  cases s with
  | false => rfl
  | true => exact map_fst_promote .nested ms

/-- Every token has one role. -/
@[simp] theorem Grammar.Tree.map_fst_marked {σ : Symbol} (a : Tree σ) (s : Bool) :
    (a.marked s).map Prod.fst = a.tokens := by
  induction a generalizing s <;> simp [*]

end Roles

/-! ## What is told about names -/

/-- What marked tokens tell about names, before the tokens `rest`. -/
def told (rest : List Token) : List (Token × Role) → List Event
  | [] => []
  | m :: ms => m.2.tells m.1 (kindAt (ms.map Prod.fst ++ rest)) ++ told rest ms

/-- An event about the course of a body. -/
def Event.isCourse : Event → Bool
  | .statement _ | .returned | .opened | .closed => true
  | _ => false

/-- The events that are not about the course of a body. -/
def names (es : List Event) : List Event := es.filter (!·.isCourse)

section Told

variable {rest : List Token} {ms ns : List (Token × Role)}

@[simp] theorem told_nil (rest : List Token) : told rest [] = [] := rfl

@[simp] theorem told_plain (rest : List Token) (t : Token) (ms : List (Token × Role)) :
    told rest (plain t :: ms) = told rest ms := rfl

@[simp] theorem told_loop (rest : List Token) (t : Token) (ms : List (Token × Role)) :
    told rest ((t, .loop) :: ms) = .bound t.text :: told rest ms := rfl

theorem told_append (rest : List Token) (ms ns : List (Token × Role)) :
    told rest (ms ++ ns) = told (ns.map Prod.fst ++ rest) ms ++ told rest ns := by
  induction ms with
  | nil => rfl
  | cons m ms ih => simp [told, ih]

@[simp] theorem names_nil : names [] = [] := rfl

@[simp] theorem names_append (es fs : List Event) : names (es ++ fs) = names es ++ names fs :=
  List.filter_append es fs

@[simp] theorem names_started (ts : List Token) : names (started ts) = [] := by
  cases ts <;> rfl

/-- A list of marked tokens that starts with an operand or a token that is no name. -/
def OperandFirst (ms : List (Token × Role)) : Prop := ∃ t r, ms = (t, .ofOperand t) :: r

/-- A target is told before it is told as an operand. -/
theorem told_promote (ρ : Role) (hρ : ρ.assigns = true) (h : OperandFirst ms) (rest : List Token) :
    told rest (promote ρ ms) = assigned true (ms.map Prod.fst) ++ told rest ms := by
  obtain ⟨x, r, rfl⟩ := h
  cases r with
  | nil => rfl
  | cons e r =>
    by_cases h : x.kind = .identifier ∧ e.1.kind = .assign
    · cases ρ with
      | target | nested => simp [promote, assigned, told, Role.tells, Role.ofOperand, h]
      | operand | loop | other => cases hρ
    · simp [promote, assigned, h]

theorem told_within (h : OperandFirst ms) (s : Bool) (rest : List Token) :
    told rest (within s ms) = assigned s (ms.map Prod.fst) ++ told rest ms := by
  cases s with
  | true => exact told_promote .nested rfl h rest
  | false =>
    have hnone (ts : List Token) : assigned false ts = [] := by
      unfold assigned
      split <;> simp
    rw [hnone]
    rfl

@[simp] theorem names_assigned (s : Bool) (ts : List Token) :
    names (assigned s ts) = assigned s ts := by
  unfold assigned
  split
  · split <;> rfl
  · rfl

@[simp] theorem names_mentioned (t : Token) (k : Kind) :
    names [mentioned t k] = [mentioned t k] := rfl

@[simp] theorem names_bound (name : String) (es : List Event) :
    names (.bound name :: es) = .bound name :: names es := rfl

@[simp] theorem names_opened (es : List Event) : names (.opened :: es) = names es := rfl

@[simp] theorem names_closed : names [.closed] = [] := rfl

@[simp] theorem names_returned : names [.returned] = [] := rfl

end Told

/-- The kinds of phrases that start with an operand or a sign. -/
def Grammar.Symbol.leads : Symbol → Bool
  | .expression _ | .chain => true
  | _ => false

theorem OperandFirst.append {ms : List (Token × Role)} (h : OperandFirst ms)
    (ns : List (Token × Role)) : OperandFirst (ms ++ ns) := by
  obtain ⟨t, r, rfl⟩ := h
  exact ⟨t, r ++ ns, rfl⟩

/-- A token of a kind that is not that of names starts no expression as a name. -/
theorem operandFirst_plain {t : Token} (h : t.kind ≠ .identifier) (ms : List (Token × Role)) :
    OperandFirst (plain t :: ms) :=
  ⟨t, ms, by rw [plain, Role.ofOperand, if_neg h]⟩

theorem Grammar.Tree.operandFirst {σ : Symbol} (hσ : σ.leads = true) (a : Tree σ) (s : Bool) :
    OperandFirst (a.marked s) := by
  induction a with
  | atom t => exact ⟨t.1, [], rfl⟩
  | group l _ _ _ => exact operandFirst_plain (by rw [l.2]; decide) _
  | sign t _ _ =>
    refine operandFirst_plain (fun h => ?_) _
    have := t.2
    rw [h] at this
    exact absurd this (by decide)
  | member _ _ _ ih | property _ _ _ ih => exact (ih rfl).append _
  | call _ _ _ _ ih _ | index _ _ _ _ ih _ | operation _ _ _ ih _ => exact (ih rfl).append _
  | link _ ih | operand _ _ ih => exact ih rfl
  | _ => cases hσ

/-- **What a tree tells about names is told by the roles of its tokens.** -/
theorem Grammar.Tree.names_tells {σ : Symbol} (a : Tree σ) (s : Bool) (rest : List Token) :
    names (a.tells s rest) = told rest (a.marked s) := by
  have first (a : Tree (.expression 0)) (s : Bool) : OperandFirst (a.marked s) :=
    a.operandFirst rfl s
  induction a generalizing s rest with
  | atom t => by_cases h : t.1.kind = .identifier <;> simp [told, Role.tells, Role.ofOperand, h]
  | simple a _ ih => simp [told_append, told_promote .target rfl (first a true), ih]
  | _ => simp [told_append, told_within, *]

end Partitura.ManuScript
