import Partitura.Proofs.ManuScript.Clauses

/-!
# Syntax trees

A `Tree σ` is a phrase of the kind `σ` with its parts: there is one constructor for each rule of the
grammar, and its tokens have the kinds that the rule asks for. So every phrase of the grammar is
made of the tokens of a tree (`Derives.exists_tree`), and what is said of a phrase can be said of
its parts.

The reader makes no tree, and no tree is made for it: trees are what the theorems about programs go
through.
-/

namespace Partitura.ManuScript

namespace Grammar

/-- A token of a kind. -/
abbrev Leaf (k : Kind) : Type := { t : Token // t.kind = k }

/-- A token of one of some kinds. -/
abbrev LeafOf (ks : List Kind) : Type := { t : Token // t.kind ∈ ks }

/-- The trees of the grammar, by the kinds of phrases. -/
inductive Tree : Symbol → Type where
  -- chains
  | atom (t : LeafOf atoms) : Tree .chain
  | group (l : Leaf .lparen) (a : Tree (.expression 0)) (r : Leaf .rparen) : Tree .chain
  | member (a : Tree .chain) (d : Leaf .dot) (i : Leaf .identifier) : Tree .chain
  | call (a : Tree .chain) (l : Leaf .lparen) (b : Tree .arguments) (r : Leaf .rparen) : Tree .chain
  | index (a : Tree .chain) (l : Leaf .lbracket) (b : Tree (.expression 0)) (r : Leaf .rbracket) :
      Tree .chain
  | property (a : Tree .chain) (c : Leaf .colon) (i : Leaf .identifier) : Tree .chain
  -- expressions
  | link (a : Tree .chain) : Tree (.expression 5)
  | sign (t : LeafOf signs) (a : Tree (.expression 5)) : Tree (.expression 5)
  | operand {n : Nat} (hn : n < 5) (a : Tree (.expression (n + 1))) : Tree (.expression n)
  | operation {n : Nat} (a : Tree (.expression n)) (op : LeafOf (operators n))
    (b : Tree (.expression (n + 1))) :
      Tree (.expression n)
  -- arguments
  | noArgument : Tree .arguments
  | firstArgument (a : Tree (.expression 0)) (b : Tree .moreArguments) : Tree .arguments
  | lastArgument : Tree .moreArguments
  | nextArgument (c : Leaf .comma) (a : Tree (.expression 0)) (b : Tree .moreArguments) :
      Tree .moreArguments
  -- blocks and sequences
  | block (l : Leaf .lbrace) (a : Tree .statements) (r : Leaf .rbrace) : Tree .block
  | noStatement : Tree .statements
  | nextStatement (a : Tree .statement) (b : Tree .statements) : Tree .statements
  -- statements
  | empty (c : Leaf .semicolon) : Tree .statement
  | simple (a : Tree (.expression 0)) (c : Leaf .semicolon) : Tree .statement
  | nested (a : Tree .block) : Tree .statement
  | returnNothing (k : Leaf .kwReturn) (c : Leaf .semicolon) : Tree .statement
  | returnValue (k : Leaf .kwReturn) (a : Tree (.expression 0)) (c : Leaf .semicolon) :
      Tree .statement
  | ifThen (k : Leaf .kwIf) (a : Tree .conditional) : Tree .statement
  | whileDo (k : Leaf .kwWhile) (l : Leaf .lparen) (a : Tree (.expression 0)) (r : Leaf .rparen)
    (b : Tree .block) :
      Tree .statement
  | forTo (k : Leaf .kwFor) (x : Leaf .identifier) (e : Leaf .assign) (a : Tree (.expression 0))
    (t : Leaf .kwTo)
      (b : Tree (.expression 0)) (c : Tree .block) : Tree .statement
  | forEach (k : Leaf .kwFor) (e : Leaf .kwEach) (x : Leaf .identifier) (i : Leaf .kwIn)
    (a : Tree (.expression 0))
      (b : Tree .block) : Tree .statement
  | forEachTyped (k : Leaf .kwFor) (e : Leaf .kwEach) (t x : Leaf .identifier) (i : Leaf .kwIn)
    (a : Tree (.expression 0))
      (b : Tree .block) : Tree .statement
  | switch (k : Leaf .kwSwitch) (l : Leaf .lparen) (a : Tree (.expression 0)) (r : Leaf .rparen)
    (o : Leaf .lbrace)
      (b : Tree .entries) (c : Leaf .rbrace) : Tree .statement
  -- parts of `if` and `switch`
  | conditional (l : Leaf .lparen) (a : Tree (.expression 0)) (r : Leaf .rparen) (b : Tree .block)
    (c : Tree .alternative) :
      Tree .conditional
  | noElse : Tree .alternative
  | otherwise (e : Leaf .kwElse) (b : Tree .block) : Tree .alternative
  | otherwiseIf (e : Leaf .kwElse) (i : Leaf .kwIf) (a : Tree .conditional) : Tree .alternative
  | noEntry : Tree .entries
  | caseEntry (k : Leaf .kwCase) (l : Leaf .lparen) (a : Tree (.expression 0)) (r : Leaf .rparen)
    (b : Tree .block)
      (c : Tree .entries) : Tree .entries
  | defaultEntry (k : Leaf .kwDefault) (b : Tree .block) (c : Tree .entries) : Tree .entries

/-- The tokens of a tree, in their order. -/
@[simp] def Tree.tokens : {σ : Symbol} → Tree σ → List Token
  | _, .atom t => [t.1]
  | _, .group l a r => l.1 :: (a.tokens ++ [r.1])
  | _, .member a d i => a.tokens ++ [d.1, i.1]
  | _, .call a l b r => a.tokens ++ l.1 :: (b.tokens ++ [r.1])
  | _, .index a l b r => a.tokens ++ l.1 :: (b.tokens ++ [r.1])
  | _, .property a c i => a.tokens ++ [c.1, i.1]
  | _, .link a => a.tokens
  | _, .sign t a => t.1 :: a.tokens
  | _, .operand _ a => a.tokens
  | _, .operation a op b => a.tokens ++ op.1 :: b.tokens
  | _, .noArgument => []
  | _, .firstArgument a b => a.tokens ++ b.tokens
  | _, .lastArgument => []
  | _, .nextArgument c a b => c.1 :: (a.tokens ++ b.tokens)
  | _, .block l a r => l.1 :: (a.tokens ++ [r.1])
  | _, .noStatement => []
  | _, .nextStatement a b => a.tokens ++ b.tokens
  | _, .empty c => [c.1]
  | _, .simple a c => a.tokens ++ [c.1]
  | _, .nested a => a.tokens
  | _, .returnNothing k c => [k.1, c.1]
  | _, .returnValue k a c => k.1 :: (a.tokens ++ [c.1])
  | _, .ifThen k a => k.1 :: a.tokens
  | _, .whileDo k l a r b => k.1 :: l.1 :: (a.tokens ++ r.1 :: b.tokens)
  | _, .forTo k x e a t b c => k.1 :: x.1 :: e.1 :: (a.tokens ++ t.1 :: (b.tokens ++ c.tokens))
  | _, .forEach k e x i a b => k.1 :: e.1 :: x.1 :: i.1 :: (a.tokens ++ b.tokens)
  | _, .forEachTyped k e t x i a b => k.1 :: e.1 :: t.1 :: x.1 :: i.1 :: (a.tokens ++ b.tokens)
  | _, .switch k l a r o b c => k.1 :: l.1 :: (a.tokens ++ r.1 :: o.1 :: (b.tokens ++ [c.1]))
  | _, .conditional l a r b c => l.1 :: (a.tokens ++ r.1 :: (b.tokens ++ c.tokens))
  | _, .noElse => []
  | _, .otherwise e b => e.1 :: b.tokens
  | _, .otherwiseIf e i a => e.1 :: i.1 :: a.tokens
  | _, .noEntry => []
  | _, .caseEntry k l a r b c => k.1 :: l.1 :: (a.tokens ++ r.1 :: (b.tokens ++ c.tokens))
  | _, .defaultEntry k b c => k.1 :: (b.tokens ++ c.tokens)

/-- Every phrase has a tree. -/
theorem Derives.exists_tree {σ : Symbol} {ts : List Token} (h : Derives σ ts) :
    ∃ a : Tree σ, a.tokens = ts := by
  induction h with
  | atom ht => exact ⟨.atom ⟨_, ht⟩, rfl⟩
  | group hl _ hr ih => obtain ⟨a, rfl⟩ := ih; exact ⟨.group ⟨_, hl⟩ a ⟨_, hr⟩, rfl⟩
  | member _ hd hi ih => obtain ⟨a, rfl⟩ := ih; exact ⟨.member a ⟨_, hd⟩ ⟨_, hi⟩, rfl⟩
  | call _ hl _ hr iha ihb =>
    obtain ⟨⟨a, rfl⟩, b, rfl⟩ := And.intro iha ihb
    exact ⟨.call a ⟨_, hl⟩ b ⟨_, hr⟩, rfl⟩
  | index _ hl _ hr iha ihb =>
    obtain ⟨⟨a, rfl⟩, b, rfl⟩ := And.intro iha ihb
    exact ⟨.index a ⟨_, hl⟩ b ⟨_, hr⟩, rfl⟩
  | property _ hc hi ih => obtain ⟨a, rfl⟩ := ih; exact ⟨.property a ⟨_, hc⟩ ⟨_, hi⟩, rfl⟩
  | link _ ih => obtain ⟨a, rfl⟩ := ih; exact ⟨.link a, rfl⟩
  | sign ht _ ih => obtain ⟨a, rfl⟩ := ih; exact ⟨.sign ⟨_, ht⟩ a, rfl⟩
  | operand hn _ ih => obtain ⟨a, rfl⟩ := ih; exact ⟨.operand hn a, rfl⟩
  | operation _ hop _ iha ihb =>
    obtain ⟨⟨a, rfl⟩, b, rfl⟩ := And.intro iha ihb
    exact ⟨.operation a ⟨_, hop⟩ b, rfl⟩
  | noArgument => exact ⟨.noArgument, rfl⟩
  | firstArgument _ _ iha ihb =>
    obtain ⟨⟨a, rfl⟩, b, rfl⟩ := And.intro iha ihb
    exact ⟨.firstArgument a b, rfl⟩
  | lastArgument => exact ⟨.lastArgument, rfl⟩
  | nextArgument hc _ _ iha ihb =>
    obtain ⟨⟨a, rfl⟩, b, rfl⟩ := And.intro iha ihb
    exact ⟨.nextArgument ⟨_, hc⟩ a b, rfl⟩
  | block hl _ hr ih => obtain ⟨a, rfl⟩ := ih; exact ⟨.block ⟨_, hl⟩ a ⟨_, hr⟩, rfl⟩
  | noStatement => exact ⟨.noStatement, rfl⟩
  | nextStatement _ _ iha ihb =>
    obtain ⟨⟨a, rfl⟩, b, rfl⟩ := And.intro iha ihb
    exact ⟨.nextStatement a b, rfl⟩
  | empty hc => exact ⟨.empty ⟨_, hc⟩, rfl⟩
  | simple _ hc ih => obtain ⟨a, rfl⟩ := ih; exact ⟨.simple a ⟨_, hc⟩, rfl⟩
  | nested _ ih => obtain ⟨a, rfl⟩ := ih; exact ⟨.nested a, rfl⟩
  | returnNothing hk hc => exact ⟨.returnNothing ⟨_, hk⟩ ⟨_, hc⟩, rfl⟩
  | returnValue hk _ hc ih => obtain ⟨a, rfl⟩ := ih; exact ⟨.returnValue ⟨_, hk⟩ a ⟨_, hc⟩, rfl⟩
  | ifThen hk _ ih => obtain ⟨a, rfl⟩ := ih; exact ⟨.ifThen ⟨_, hk⟩ a, rfl⟩
  | whileDo hk hl _ hr _ iha ihb =>
    obtain ⟨⟨a, rfl⟩, b, rfl⟩ := And.intro iha ihb
    exact ⟨.whileDo ⟨_, hk⟩ ⟨_, hl⟩ a ⟨_, hr⟩ b, rfl⟩
  | forTo hk hx he _ ht _ _ iha ihb ihc =>
    obtain ⟨⟨a, rfl⟩, ⟨b, rfl⟩, c, rfl⟩ := And.intro iha (And.intro ihb ihc)
    exact ⟨.forTo ⟨_, hk⟩ ⟨_, hx⟩ ⟨_, he⟩ a ⟨_, ht⟩ b c, rfl⟩
  | forEach hk he hx hi _ _ iha ihb =>
    obtain ⟨⟨a, rfl⟩, b, rfl⟩ := And.intro iha ihb
    exact ⟨.forEach ⟨_, hk⟩ ⟨_, he⟩ ⟨_, hx⟩ ⟨_, hi⟩ a b, rfl⟩
  | forEachTyped hk he ht hx hi _ _ iha ihb =>
    obtain ⟨⟨a, rfl⟩, b, rfl⟩ := And.intro iha ihb
    exact ⟨.forEachTyped ⟨_, hk⟩ ⟨_, he⟩ ⟨_, ht⟩ ⟨_, hx⟩ ⟨_, hi⟩ a b, rfl⟩
  | switch hk hl _ hr ho _ hc iha ihb =>
    obtain ⟨⟨a, rfl⟩, b, rfl⟩ := And.intro iha ihb
    exact ⟨.switch ⟨_, hk⟩ ⟨_, hl⟩ a ⟨_, hr⟩ ⟨_, ho⟩ b ⟨_, hc⟩, rfl⟩
  | conditional hl _ hr _ _ iha ihb ihc =>
    obtain ⟨⟨a, rfl⟩, ⟨b, rfl⟩, c, rfl⟩ := And.intro iha (And.intro ihb ihc)
    exact ⟨.conditional ⟨_, hl⟩ a ⟨_, hr⟩ b c, rfl⟩
  | noElse => exact ⟨.noElse, rfl⟩
  | otherwise he _ ih => obtain ⟨b, rfl⟩ := ih; exact ⟨.otherwise ⟨_, he⟩ b, rfl⟩
  | otherwiseIf he hi _ ih => obtain ⟨a, rfl⟩ := ih; exact ⟨.otherwiseIf ⟨_, he⟩ ⟨_, hi⟩ a, rfl⟩
  | noEntry => exact ⟨.noEntry, rfl⟩
  | caseEntry hk hl _ hr _ _ iha ihb ihc =>
    obtain ⟨⟨a, rfl⟩, ⟨b, rfl⟩, c, rfl⟩ := And.intro iha (And.intro ihb ihc)
    exact ⟨.caseEntry ⟨_, hk⟩ ⟨_, hl⟩ a ⟨_, hr⟩ b c, rfl⟩
  | defaultEntry hk _ _ ihb ihc =>
    obtain ⟨⟨b, rfl⟩, c, rfl⟩ := And.intro ihb ihc
    exact ⟨.defaultEntry ⟨_, hk⟩ b c, rfl⟩

/-! ## The first tokens of phrases -/

open Reader

/-- A leaf is no comment, so the reader passes over nothing before it. -/
theorem Leaf.skip_eq {k : Kind} (t : Leaf k) (hk : k ≠ .comment) (r : List Token) :
    skip (t.1 :: r) = t.1 :: r :=
  skip_cons (by rwa [t.2]) r

/-- What is known of the first token of a phrase. -/
def Tree.Fronted : {σ : Symbol} → Tree σ → Prop
  | .expression _, a => kindAt a.tokens ∈ starts
  | .chain, a => kindAt a.tokens ∈ .lparen :: atoms
  | .block, a => kindAt a.tokens = .lbrace
  | .statement, a => kindAt a.tokens ∉ [.comment, .kwElse, .rbrace, .fin]
  | _, _ => True

/-- What goes on with a chain does not change how it starts. -/
theorem Tree.Fronted.append {a : Tree .chain} (h : a.Fronted) (r : List Token) :
    kindAt (a.tokens ++ r) ∈ .lparen :: atoms := by
  have hall : ∀ k ∈ .lparen :: atoms, k ≠ .fin := by decide
  rwa [kindAt_append (hall _ h)]

theorem Tree.fronted {σ : Symbol} (a : Tree σ) : a.Fronted := by
  have first {t : Token} {k : Kind} (ht : t.kind = k) (hk : k ∉ [.comment, .kwElse, .rbrace, .fin])
      (r : List Token) :
      kindAt (t :: r) ∉ [.comment, .kwElse, .rbrace, .fin] := by
    rwa [kindAt_cons, ht]
  induction a with
  | atom t => exact List.mem_cons_of_mem _ t.2
  | group l _ _ => exact List.mem_cons.2 (.inl l.2)
  | member _ _ _ ih | property _ _ _ ih => exact ih.append _
  | call _ _ _ _ ih _ | index _ _ _ _ ih _ => exact ih.append _
  | link _ ih => exact List.mem_append_right _ ih
  | sign t _ _ => exact List.mem_append_left _ t.2
  | operand _ _ ih => exact ih
  | operation _ _ _ ih _ => exact kindAt_append_of_starts ih _
  | block l _ _ _ => exact l.2
  | empty c => exact first c.2 (by decide) _
  | simple a _ ih =>
    have hall : ∀ k ∈ starts, k ∉ [.comment, .kwElse, .rbrace, .fin] := by decide
    exact hall _ (kindAt_append_of_starts ih _)
  | nested a ih =>
    have hblock : kindAt a.tokens = .lbrace := ih
    rw [Tree.Fronted, Tree.tokens, hblock]
    decide
  | returnNothing k _ | returnValue k _ _ _ => exact first k.2 (by decide) _
  | ifThen k _ _ => exact first k.2 (by decide) _
  | whileDo k _ _ _ _ _ _ => exact first k.2 (by decide) _
  | forTo k _ _ _ _ _ _ _ _ _ => exact first k.2 (by decide) _
  | forEach k _ _ _ _ _ _ _ | forEachTyped k _ _ _ _ _ _ _ _ => exact first k.2 (by decide) _
  | switch k _ _ _ _ _ _ _ _ => exact first k.2 (by decide) _
  | noArgument | firstArgument | lastArgument | nextArgument | noStatement | nextStatement
  | conditional | noElse | otherwise
  | otherwiseIf | noEntry | caseEntry | defaultEntry => trivial

theorem Tree.statement_tokens (a : Tree .statement) :
    ∃ t r, a.tokens = t :: r ∧ t.kind ≠ .comment ∧ t.kind ≠ .kwElse ∧ t.kind ≠ .rbrace := by
  have hfirst : kindAt a.tokens ∉ [.comment, .kwElse, .rbrace, .fin] := a.fronted
  simp only [List.mem_cons, List.not_mem_nil, or_false, not_or] at hfirst
  obtain ⟨t, r, ht⟩ := List.exists_cons_of_ne_nil (ne_nil_of_kindAt hfirst.2.2.2)
  rw [ht] at hfirst
  exact ⟨t, r, ht, hfirst.1, hfirst.2.1, hfirst.2.2.1⟩

end Grammar

end Partitura.ManuScript
