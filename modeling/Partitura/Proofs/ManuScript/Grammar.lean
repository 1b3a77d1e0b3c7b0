import Partitura.ManuScript.Token

/-!
# The grammar of method bodies

What the code of a method may look like, as a grammar over tokens: `Derives σ ts` says that the
tokens `ts` are a phrase of the kind `σ`. Only the kinds of the tokens count, and a phrase has no
comments.

Binary operators stand on five levels, from `or` to products. A phrase of a level is a phrase of the
next one, or such a phrase behind an operator of the level and another phrase of it; so the
operators of a level bind to the left and those of the next level bind more. On the sixth level are
signs, and then chains: an operand with members, calls, indices and properties behind it.
-/

namespace Partitura.ManuScript.Grammar

/-- The kinds of phrases. -/
inductive Symbol where
  | expression (level : Nat)
  | chain
  | arguments
  /-- The arguments after the first one. -/
  | moreArguments
  | block
  | statement
  | statements
  /-- An `if` without its keyword. -/
  | conditional
  /-- What may follow the block of an `if`. -/
  | alternative
  /-- The entries of a `switch`. -/
  | entries
deriving DecidableEq, Repr

/-- The binary operators of a level. -/
def operators : Nat → List Kind
  | 0 => [.kwOr]
  | 1 => [.kwAnd]
  | 2 => [.assign, .neq, .lt, .gt, .lte, .gte]
  | 3 => [.plus, .minus, .ampersand]
  | 4 => [.star, .slash, .percent]
  | _ => []

/-- The operators in front of an operand. -/
def signs : List Kind := [.kwNot, .minus]

/-- The operands that are a single token. -/
def atoms : List Kind := [.number, .string, .kwTrue, .kwFalse, .kwNull, .identifier]

/-- The tokens that are a phrase of a kind. -/
inductive Derives : Symbol → List Token → Prop where
  -- chains
  | atom {t : Token} : t.kind ∈ atoms → Derives .chain [t]
  | group {l r : Token} {a : List Token} :
      l.kind = .lparen → Derives (.expression 0) a → r.kind = .rparen →
      Derives .chain (l :: (a ++ [r]))
  | member {d i : Token} {a : List Token} :
      Derives .chain a → d.kind = .dot → i.kind = .identifier →
      Derives .chain (a ++ [d, i])
  | call {l r : Token} {a b : List Token} :
      Derives .chain a → l.kind = .lparen → Derives .arguments b → r.kind = .rparen →
      Derives .chain (a ++ l :: (b ++ [r]))
  | index {l r : Token} {a b : List Token} :
      Derives .chain a → l.kind = .lbracket → Derives (.expression 0) b →
      r.kind = .rbracket → Derives .chain (a ++ l :: (b ++ [r]))
  | property {c i : Token} {a : List Token} :
      Derives .chain a → c.kind = .colon → i.kind = .identifier →
      Derives .chain (a ++ [c, i])
  -- expressions
  | link {a : List Token} : Derives .chain a → Derives (.expression 5) a
  | sign {t : Token} {a : List Token} :
      t.kind ∈ signs → Derives (.expression 5) a → Derives (.expression 5) (t :: a)
  | operand {n : Nat} {a : List Token} :
      n < 5 → Derives (.expression (n + 1)) a → Derives (.expression n) a
  | operation {n : Nat} {op : Token} {a b : List Token} :
      Derives (.expression n) a → op.kind ∈ operators n →
      Derives (.expression (n + 1)) b → Derives (.expression n) (a ++ op :: b)
  -- arguments
  | noArgument : Derives .arguments []
  | firstArgument {a b : List Token} : Derives (.expression 0) a → Derives .moreArguments b →
    Derives .arguments (a ++ b)
  | lastArgument : Derives .moreArguments []
  | nextArgument {c : Token} {a b : List Token} :
      c.kind = .comma → Derives (.expression 0) a → Derives .moreArguments b →
      Derives .moreArguments (c :: (a ++ b))
  -- blocks and sequences
  | block {l r : Token} {a : List Token} :
      l.kind = .lbrace → Derives .statements a → r.kind = .rbrace →
      Derives .block (l :: (a ++ [r]))
  | noStatement : Derives .statements []
  | nextStatement {a b : List Token} :
      Derives .statement a → Derives .statements b → Derives .statements (a ++ b)
  -- statements
  | empty {c : Token} : c.kind = .semicolon → Derives .statement [c]
  | simple {c : Token} {a : List Token} :
      Derives (.expression 0) a → c.kind = .semicolon → Derives .statement (a ++ [c])
  | nested {a : List Token} : Derives .block a → Derives .statement a
  | returnNothing {k c : Token} :
      k.kind = .kwReturn → c.kind = .semicolon → Derives .statement [k, c]
  | returnValue {k c : Token} {a : List Token} :
      k.kind = .kwReturn → Derives (.expression 0) a → c.kind = .semicolon →
      Derives .statement (k :: (a ++ [c]))
  | ifThen {k : Token} {a : List Token} :
      k.kind = .kwIf → Derives .conditional a → Derives .statement (k :: a)
  | whileDo {k l r : Token} {a b : List Token} :
      k.kind = .kwWhile → l.kind = .lparen → Derives (.expression 0) a →
      r.kind = .rparen → Derives .block b → Derives .statement (k :: l :: (a ++ r :: b))
  | forTo {k x e t : Token} {a b c : List Token} :
      k.kind = .kwFor → x.kind = .identifier → e.kind = .assign →
      Derives (.expression 0) a → t.kind = .kwTo → Derives (.expression 0) b → Derives .block c →
      Derives .statement (k :: x :: e :: (a ++ t :: (b ++ c)))
  | forEach {k e x i : Token} {a b : List Token} :
      k.kind = .kwFor → e.kind = .kwEach → x.kind = .identifier → i.kind = .kwIn →
      Derives (.expression 0) a → Derives .block b →
        Derives .statement (k :: e :: x :: i :: (a ++ b))
  | forEachTyped {k e t x i : Token} {a b : List Token} :
      k.kind = .kwFor → e.kind = .kwEach → t.kind = .identifier →
      x.kind = .identifier → i.kind = .kwIn → Derives (.expression 0) a → Derives .block b →
      Derives .statement (k :: e :: t :: x :: i :: (a ++ b))
  | switch {k l r o c : Token} {a b : List Token} :
      k.kind = .kwSwitch → l.kind = .lparen → Derives (.expression 0) a →
      r.kind = .rparen → o.kind = .lbrace → Derives .entries b → c.kind = .rbrace →
      Derives .statement (k :: l :: (a ++ r :: o :: (b ++ [c])))
  -- parts of `if` and `switch`
  | conditional {l r : Token} {a b c : List Token} :
      l.kind = .lparen → Derives (.expression 0) a → r.kind = .rparen →
      Derives .block b → Derives .alternative c → Derives .conditional (l :: (a ++ r :: (b ++ c)))
  | noElse : Derives .alternative []
  | otherwise {e : Token} {b : List Token} :
      e.kind = .kwElse → Derives .block b → Derives .alternative (e :: b)
  | otherwiseIf {e i : Token} {a : List Token} :
      e.kind = .kwElse → i.kind = .kwIf → Derives .conditional a →
      Derives .alternative (e :: i :: a)
  | noEntry : Derives .entries []
  | caseEntry {k l r : Token} {a b c : List Token} :
      k.kind = .kwCase → l.kind = .lparen → Derives (.expression 0) a →
      r.kind = .rparen → Derives .block b → Derives .entries c →
        Derives .entries (k :: l :: (a ++ r :: (b ++ c)))
  | defaultEntry {k : Token} {b c : List Token} :
      k.kind = .kwDefault → Derives .block b → Derives .entries c →
      Derives .entries (k :: (b ++ c))

/-- A phrase of a level is one of every level that binds less. -/
theorem Derives.loosen {n m : Nat} (hnm : n ≤ m) (hm : m ≤ 5) {a : List Token}
    (h : Derives (.expression m) a) : Derives (.expression n) a := by
  induction hnm with
  | refl => exact h
  | step _ ih => exact ih (by omega) (.operand (by omega) h)

end Partitura.ManuScript.Grammar
