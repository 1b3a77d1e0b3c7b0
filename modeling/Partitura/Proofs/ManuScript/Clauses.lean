import Partitura.Proofs.ManuScript.Phrases

/-!
# The rules of statements

The rules of the reader for statements, in the manner of those for expressions:
`Clause.Parses fin c ts e r` says that the part `c` tells `e` about the tokens `ts` and leaves `r`,
and `Clause.parses_iff` that the rules say exactly what the parts do.
-/

namespace Partitura.ManuScript.Reader

open Grammar

/-- The parts of the reader for statements. Those for a statement with a keyword start behind it. -/
inductive Clause where
  | returned
  /-- What ends an expression that stands as a statement. -/
  | terminator
  | statement
  | statements
  | block
  | ownedBlock (owner : String)
  /-- A condition in parentheses and the block that it guards. -/
  | guarded (opening closing owner : String)
  | conditional
  | alternative
  | loop
  | counted
  | each
  | collection
  | switch
  | entries
deriving DecidableEq, Repr

/-- The end of a `return`. -/
def closeReturn (fin : Position) (ts : List Token) : Reading 0 ts :=
  require fin .semicolon "';' after return statement" ts

/-- The end of a block. -/
def closeBlock (fin : Position) (ts : List Token) : Reading 0 ts :=
  require fin .rbrace "'\x7d' to close block" ts

/-- The end of a `switch`. -/
def closeSwitch (fin : Position) (ts : List Token) : Reading 0 ts :=
  require fin .rbrace "'\x7d' to close switch" ts

/-- The kinds that end a `return` without a value. -/
def returnEnds : List Kind := [.semicolon, .rbrace, .fin]

/-- The kinds before which an expression that stands as a statement lacks its semicolon. -/
def unfinished : List Kind := [.identifier, .kwIf, .kwWhile, .kwFor, .kwReturn]

/-- The part for a statement that starts with a token of that kind, if such a statement is more than
an expression. -/
def headed : Kind → Option Clause
  | .kwIf => some .conditional
  | .kwWhile => some (.guarded "'(' after 'while'" "')' after while condition" "while")
  | .kwFor => some .loop
  | .kwSwitch => some .switch
  | .kwReturn => some .returned
  | .lbrace => some .block
  | _ => none

/-- What the parts of the reader for statements tell about tokens, and what they leave. -/
inductive Clause.Parses (fin : Position) :
    Clause → List Token → List Event → List Token → Prop where
  -- statements
  | returnNothing {ts : List Token} : kindAt (skip ts) ∈ returnEnds →
      Parses fin .returned ts ((closeReturn fin (skip ts)).events ++ [.returned])
        (closeReturn fin (skip ts)).rest
  | returnValue {ts r : List Token} {e : List Event} : kindAt (skip ts) ∉ returnEnds →
      Phrase.Parses fin (.expression false) (skip ts) e r →
      Parses fin .returned ts (e ++ (closeReturn fin r).events ++ [.returned])
        (closeReturn fin r).rest
  | ended {ts : List Token} :
      kindAt (skip ts) = .rbrace ∨ skip ts = [] → Parses fin .terminator ts [] (skip ts)
  | noSemicolon {ts r : List Token} {t : Token} : skip ts = t :: r → t.kind ∈ unfinished →
      Parses fin .terminator ts [.issue ⟨t.pos, .missingSemicolon⟩] (t :: r)
  | semicolon {ts r : List Token} {t : Token} : skip ts = t :: r → t.kind ∉ .rbrace :: unfinished →
      Parses fin .terminator ts [] r
  | noStatement {ts : List Token} : skip ts = [] → Parses fin .statement ts [] []
  | stray {ts r : List Token} {t : Token} : skip ts = t :: r → t.kind = .rbrace →
      Parses fin .statement ts [.issue ⟨t.pos, .strayBrace⟩] r
  | empty {ts r : List Token} {t : Token} : skip ts = t :: r → t.kind = .semicolon →
      Parses fin .statement ts [.statement t.pos, .issue ⟨t.pos, .emptyStatement⟩] r
  | headed {ts r out : List Token} {t : Token} {c : Clause} {e : List Event} :
      skip ts = t :: r → headed t.kind = some c → Parses fin c r e out →
        Parses fin .statement ts (.statement t.pos :: e) out
  | noSimple {ts r : List Token} {t : Token} :
      skip ts = t :: r → t.kind ∈ [.rparen, .rbracket, .comma, .fin] →
      Parses fin .statement ts [.statement t.pos, .issue ⟨t.pos, .missingExpression⟩] r
  | simple {ts r u out : List Token} {t : Token} {e e' : List Event} :
      skip ts = t :: r → headed t.kind = none → endsExpression t.kind = false →
        Phrase.Parses fin (.operation true) (t :: r) e u → Parses fin .terminator u e' out →
      Parses fin .statement ts (.statement t.pos :: (e ++ e')) out
  -- sequences and blocks
  | noMore {ts : List Token} : kindAt ts = .rbrace ∨ ts = [] → Parses fin .statements ts [] ts
  | more {ts r out : List Token} {e e' : List Event} :
      ¬ (kindAt ts = .rbrace ∨ ts = []) → Parses fin .statement ts e r →
      Parses fin .statements (skip r) e' out → Parses fin .statements ts (e ++ e') out
  | block {ts r : List Token} {e : List Event} : Parses fin .statements ts e r →
      Parses fin .block ts (.opened :: e ++ (closeBlock fin r).events ++ [.closed])
        (closeBlock fin r).rest
  | noBlock {owner : String} {ts : List Token} : kindAt (skip ts) ≠ .lbrace →
      Parses fin (.ownedBlock owner) ts [complain fin (skip ts) (.missingBlock owner)] (skip ts)
  | ownedBlock {owner : String} {ts r out : List Token} {t : Token} {e : List Event} :
      skip ts = t :: r → t.kind = .lbrace → Parses fin .block r e out →
        Parses fin (.ownedBlock owner) ts e out
  -- conditions
  | unopened {opening closing owner : String} {ts : List Token} : kindAt (skip ts) ≠ .lparen →
      Parses fin (.guarded opening closing owner) ts (abandon fin (.expected opening) ts).events
        (abandon fin (.expected opening) ts).rest
  | unclosed {opening closing owner : String} {ts r u : List Token} {t : Token} {e : List Event} :
      skip ts = t :: r → t.kind = .lparen → Phrase.Parses fin (.expression false) r e u →
        kindAt (skip u) ≠ .rparen →
      Parses fin (.guarded opening closing owner) ts
        (e ++ (abandon fin (.expected closing) u).events)
        (abandon fin (.expected closing) u).rest
  | guarded {opening closing owner : String} {ts r u v out : List Token} {t q : Token}
    {e e' : List Event} : skip ts = t :: r →
      t.kind = .lparen → Phrase.Parses fin (.expression false) r e u → skip u = q :: v →
        q.kind = .rparen →
      Parses fin (.ownedBlock owner) v e' out →
        Parses fin (.guarded opening closing owner) ts (e ++ e') out
  | unopenedIf {ts : List Token} : kindAt (skip ts) ≠ .lparen →
      Parses fin .conditional ts (abandon fin (.expected "'(' after 'if'") ts).events
        (abandon fin (.expected "'(' after 'if'") ts).rest
  | unclosedIf {ts r u : List Token} {t : Token} {e : List Event} :
      skip ts = t :: r → t.kind = .lparen → Phrase.Parses fin (.expression false) r e u →
        kindAt (skip u) ≠ .rparen →
      Parses fin .conditional ts
        (constantCondition (skip r) ++ e ++
          (abandon fin (.expected "')' after if condition") u).events)
        (abandon fin (.expected "')' after if condition") u).rest
  | blocklessIf {ts r u v out : List Token} {t q : Token} {e e' : List Event} :
      skip ts = t :: r → t.kind = .lparen → Phrase.Parses fin (.expression false) r e u →
        skip u = q :: v → q.kind = .rparen → kindAt (skip v) ≠ .lbrace →
      Parses fin (.ownedBlock "if") v e' out →
        Parses fin .conditional ts (constantCondition (skip r) ++ e ++ e') out
  | conditional {ts r u v w out : List Token} {t q : Token} {e e' e'' : List Event} :
      skip ts = t :: r → t.kind = .lparen → Phrase.Parses fin (.expression false) r e u →
        skip u = q :: v → q.kind = .rparen → kindAt (skip v) = .lbrace →
      Parses fin (.ownedBlock "if") v e' w → Parses fin .alternative w e'' out →
      Parses fin .conditional ts (constantCondition (skip r) ++ e ++ e' ++ e'') out
  | noElse {ts : List Token} : kindAt (skip ts) ≠ .kwElse → Parses fin .alternative ts [] (skip ts)
  | otherwise {ts r out : List Token} {t : Token} {e : List Event} :
      skip ts = t :: r → t.kind = .kwElse → kindAt (skip r) ≠ .kwIf →
        Parses fin (.ownedBlock "else") r e out → Parses fin .alternative ts e out
  | otherwiseIf {ts r u out : List Token} {t q : Token} {e : List Event} :
      skip ts = t :: r → t.kind = .kwElse → skip r = q :: u → q.kind = .kwIf →
        Parses fin .conditional u e out → Parses fin .alternative ts e out
  -- loops
  | noLoop {ts : List Token} : kindAt (skip ts) ∉ [.kwEach, .identifier] →
      Parses fin .loop ts (abandon fin (.loopHead "variable name after 'for'") (skip ts)).events
        (abandon fin (.loopHead "variable name after 'for'") (skip ts)).rest
  | eachLoop {ts r out : List Token} {t : Token} {e : List Event} :
      skip ts = t :: r → t.kind = .kwEach → Parses fin .each r e out → Parses fin .loop ts e out
  | countedLoop {ts r out : List Token} {t : Token} {e : List Event} :
      skip ts = t :: r → t.kind = .identifier → Parses fin .counted r e out →
        Parses fin .loop ts (.bound t.text :: e) out
  | noStart {ts : List Token} : kindAt (skip ts) ≠ .assign →
      Parses fin .counted ts (abandon fin (.expected "'=' in for statement") ts).events
        (abandon fin (.expected "'=' in for statement") ts).rest
  | noBound {ts r u : List Token} {t : Token} {e : List Event} :
      skip ts = t :: r → t.kind = .assign → Phrase.Parses fin (.expression false) r e u →
        kindAt (skip u) ≠ .kwTo →
      Parses fin .counted ts (e ++ (abandon fin (.expected "'to' in for statement") u).events)
        (abandon fin (.expected "'to' in for statement") u).rest
  | counted {ts r u v w out : List Token} {t q : Token} {e e₁ e₂ : List Event} :
      skip ts = t :: r → t.kind = .assign → Phrase.Parses fin (.expression false) r e u →
        skip u = q :: v → q.kind = .kwTo →
      Phrase.Parses fin (.expression false) v e₁ w → Parses fin (.ownedBlock "for") w e₂ out →
      Parses fin .counted ts (e ++ e₁ ++ e₂) out
  | noVariable {ts : List Token} : kindAt (skip ts) ≠ .identifier →
      Parses fin .each ts (abandon fin (.loopHead "variable name in for each statement") ts).events
        (abandon fin (.loopHead "variable name in for each statement") ts).rest
  | noIn {ts r : List Token} {t : Token} : skip ts = t :: r → t.kind = .identifier →
      kindAt (skip r) ∉ [.identifier, .kwIn] →
      Parses fin .each ts (abandon fin (.loopHead "'in' in for each statement") r).events
        (abandon fin (.loopHead "'in' in for each statement") r).rest
  | typed {ts r w out : List Token} {t u : Token} {e : List Event} :
      skip ts = t :: r → t.kind = .identifier → skip r = u :: w → u.kind = .identifier →
        Parses fin .collection w e out → Parses fin .each ts (.bound u.text :: e) out
  | untyped {ts r out : List Token} {t : Token} {e : List Event} :
      skip ts = t :: r → t.kind = .identifier → kindAt (skip r) = .kwIn →
        Parses fin .collection (skip r) e out → Parses fin .each ts (.bound t.text :: e) out
  | noCollection {ts : List Token} : kindAt (skip ts) ≠ .kwIn →
      Parses fin .collection ts (abandon fin (.expected "'in' in for each statement") ts).events
        (abandon fin (.expected "'in' in for each statement") ts).rest
  | collection {ts r u out : List Token} {t : Token} {e e' : List Event} :
      skip ts = t :: r → t.kind = .kwIn → Phrase.Parses fin (.expression false) r e u →
        Parses fin (.ownedBlock "for each") u e' out →
      Parses fin .collection ts (e ++ e') out
  -- switches
  | unopenedSwitch {ts : List Token} : kindAt (skip ts) ≠ .lparen →
      Parses fin .switch ts (abandon fin (.expected "'(' after 'switch'") ts).events
        (abandon fin (.expected "'(' after 'switch'") ts).rest
  | unclosedSwitch {ts r u : List Token} {t : Token} {e : List Event} :
      skip ts = t :: r → t.kind = .lparen → Phrase.Parses fin (.expression false) r e u →
        kindAt (skip u) ≠ .rparen →
      Parses fin .switch ts (e ++ (abandon fin (.expected "')' after switch expression") u).events)
        (abandon fin (.expected "')' after switch expression") u).rest
  | bodilessSwitch {ts r u v : List Token} {t q : Token} {e : List Event} :
      skip ts = t :: r → t.kind = .lparen → Phrase.Parses fin (.expression false) r e u →
        skip u = q :: v → q.kind = .rparen → kindAt (skip v) ≠ .lbrace →
      Parses fin .switch ts (e ++ [complain fin (skip v) (.expected "'\x7b' for switch body")])
        (skip v)
  | switch {ts r u v w w' : List Token} {t q l : Token} {e e' : List Event} :
      skip ts = t :: r → t.kind = .lparen → Phrase.Parses fin (.expression false) r e u →
        skip u = q :: v → q.kind = .rparen → skip v = l :: w → l.kind = .lbrace →
      Parses fin .entries w e' w' →
      Parses fin .switch ts (e ++ e' ++ (closeSwitch fin w').events) (closeSwitch fin w').rest
  | noEntries {ts : List Token} :
      kindAt (skip ts) = .rbrace ∨ skip ts = [] → Parses fin .entries ts [] (skip ts)
  | caseEntry {ts r u out : List Token} {t : Token} {e e' : List Event} :
      skip ts = t :: r → t.kind = .kwCase →
        Parses fin (.guarded "'(' after 'case'" "')' after case expression" "case") r e u →
          Parses fin .entries u e' out →
      Parses fin .entries ts (e ++ e') out
  | defaultEntry {ts r u out : List Token} {t : Token} {e e' : List Event} :
      skip ts = t :: r → t.kind = .kwDefault → Parses fin (.ownedBlock "default") r e u →
        Parses fin .entries u e' out → Parses fin .entries ts (e ++ e') out
  | noEntry {ts r out : List Token} {t : Token} {e : List Event} : skip ts = t :: r →
      t.kind ∉ [.rbrace, .kwCase, .kwDefault] → Parses fin .entries r e out →
      Parses fin .entries ts (.issue ⟨t.pos, .switchEntry⟩ :: e) out

variable {c : Clause} {r : List Token} {e : List Event}

theorem Clause.Parses.congr {fin : Position} {ts r' : List Token} {e' : List Event}
    (h : c.Parses fin ts e r) (he : e = e') (hr : r = r') : c.Parses fin ts e' r' := he ▸ hr ▸ h

/-! ## At most one rule applies -/

theorem rbrace_not_mem_unfinished : Kind.rbrace ∉ unfinished := by decide

/-- The premises of two rules for the same part never hold of the same tokens. -/
theorem Clause.Parses.unique {fin : Position} {ts r' : List Token} {e' : List Event}
    (h : c.Parses fin ts e r) (h' : c.Parses fin ts e' r') : e' = e ∧ r' = r := by
  induction h generalizing e' r' <;> cases h' <;>
    grind [kindAt, Reader.headed, returnEnds, endsExpression, rbrace_not_mem_unfinished, →
      Phrase.Parses.unique]

/-! ## The rules say what the reader does -/

/-- What a part of the reader for statements does. -/
def Clause.Does (fin : Position) (ts : List Token) (e : List Event) (r : List Token) : Clause → Prop
  | .returned => Yields (Reader.returned fin ts) e r
  | .terminator => Yields (Reader.terminator ts) e r
  | .statement => Yields (Reader.statement fin ts) e r
  | .statements => Yields (Reader.statements fin ts) e r
  | .block => Yields (Reader.block fin ts) e r
  | .ownedBlock owner => Yields (Reader.ownedBlock fin owner ts) e r
  | .guarded opening closing owner => Yields (Reader.guarded fin opening closing owner ts) e r
  | .conditional => Yields (Reader.conditional fin ts) e r
  | .alternative => Yields (Reader.alternative fin ts) e r
  | .loop => Yields (Reader.loop fin (skip ts)) e r
  | .counted => Yields (Reader.counted fin ts) e r
  | .each => Yields (Reader.each fin ts) e r
  | .collection => Yields (Reader.collection fin ts) e r
  | .switch => Yields (Reader.switch fin ts) e r
  | .entries => Yields (Reader.entries fin ts) e r

/-- The rules say what a part does. -/
def Clause.Reads (fin : Position) (ts : List Token) (c : Clause) : Prop :=
  ∀ ⦃e r⦄, c.Does fin ts e r → c.Parses fin ts e r

/-- What goes down from a part to the parts that it calls at the same token. -/
def Clause.rank : Clause → Nat
  | .statement => 0
  | .statements => 1
  | _ => 2

/-- What goes down from a part to all the parts that it calls. -/
def Clause.weight (c : Clause) (ts : List Token) : Nat := 4 * ts.length + c.rank

theorem Clause.rank_le (c : Clause) : c.rank ≤ 2 := by
  unfold Clause.rank
  split <;> decide

/-- The rules say what every part of less weight does. -/
def Clause.ReadsBelow (fin : Position) (w : Nat) : Prop :=
  ∀ c us, Clause.weight c us < w → c.Reads fin us

section Coverage

variable {fin : Position} {ts : List Token}

/-- Some rule applies to every part where fewer tokens are left. -/
theorem Clause.ReadsBelow.shorter {u : List Token}
    (ih : Clause.ReadsBelow fin (c.weight ts)) (d : Clause) (h : u.length < ts.length) :
    d.Reads fin u :=
  ih d u (by have := d.rank_le; simp only [Clause.weight]; omega)

theorem parses_expression (fin : Position) (ts : List Token) :
    Phrase.Parses fin (.expression false) ts (expression fin false ts).events
      (expression fin false ts).rest :=
  Phrase.parses_iff.2 ⟨rfl, rfl⟩

theorem reads_returned : Clause.returned.Reads fin ts := by
  rintro _ _ ⟨rfl, rfl⟩
  rw [Reader.returned]
  split
  case h_4 => exact .returnValue (by simp_all [returnEnds]) (parses_expression fin (skip ts))
  all_goals next hk => exact .returnNothing (by rw [hk]; decide)

theorem reads_terminator (fin : Position) (ts : List Token) : Clause.terminator.Reads fin ts := by
  rintro _ _ ⟨rfl, rfl⟩
  rw [Reader.terminator]
  split
  · next hs => exact (Clause.Parses.ended (.inr hs)).congr rfl hs
  · next t r hs =>
    split
    case h_1 hk => exact (Clause.Parses.ended (.inl (by rwa [hs]))).congr rfl hs
    case h_7 => exact .semicolon hs (by simp_all [unfinished])
    all_goals next hk => exact .noSemicolon hs (by rw [hk]; decide)

/-- A statement that is an expression. -/
theorem reads_simple {t : Token} (hs : skip ts = t :: r) (hbrace : t.kind ≠ .rbrace)
    (hsemicolon : t.kind ≠ .semicolon) (hhead : headed t.kind = none) :
    Clause.statement.Parses fin ts (.statement t.pos :: (simple fin t r).events)
    (simple fin t r).rest := by
  rw [simple]
  split
  · next hend => exact .noSimple hs (by cases hk : t.kind <;> simp_all [endsExpression])
  · next hend =>
    exact .simple hs hhead (by simpa using hend) (Phrase.parses_iff.2 ⟨rfl, rfl⟩)
      (reads_terminator fin _ ⟨rfl, rfl⟩)

theorem reads_statement (ih : Clause.ReadsBelow fin (Clause.statement.weight ts)) :
    Clause.statement.Reads fin ts := by
  rintro _ _ ⟨rfl, rfl⟩
  rw [Reader.statement]
  split
  · next hs => exact .noStatement hs
  · next t r hs =>
    have hheaded {c : Clause} (hc : headed t.kind = some c) {e : List Event} {out : List Token}
        (h : c.Does fin r e out) :=
      Clause.Parses.headed hs hc (ih.shorter c (length_lt_of_skip hs) h)
    split
    · next hk => exact .stray hs hk
    · next hk => exact .empty hs hk
    case h_9 =>
      exact reads_simple hs (by assumption) (by assumption) (by unfold headed; split <;> simp_all)
    all_goals
      next hk =>
        refine hheaded (by rw [hk]; rfl) ?_
        exact ⟨rfl, rfl⟩

theorem reads_statements (ih : Clause.ReadsBelow fin (Clause.statements.weight ts)) :
    Clause.statements.Reads fin ts := by
  rintro _ _ ⟨rfl, rfl⟩
  rw [Reader.statements]
  split
  · next hend => exact .noMore hend
  · next hend =>
    have hpos : 0 < ts.length := List.length_pos_iff.2 fun hnil => hend (.inr hnil)
    have hr := (statement fin ts).bound
    have hskip := length_skip_le (statement fin ts).rest
    exact .more hend
      (ih .statement ts (by simp only [Clause.weight, Clause.rank]; omega) ⟨rfl, rfl⟩)
      (ih.shorter .statements (by omega) ⟨rfl, rfl⟩)

theorem reads_block (ih : Clause.ReadsBelow fin (Clause.block.weight ts)) :
    Clause.block.Reads fin ts := by
  rintro _ _ ⟨rfl, rfl⟩
  rw [Reader.block]
  exact .block (ih .statements ts (by simp only [Clause.weight, Clause.rank]; omega) ⟨rfl, rfl⟩)

theorem reads_ownedBlock {owner : String}
    (ih : Clause.ReadsBelow fin ((Clause.ownedBlock owner).weight ts)) :
    (Clause.ownedBlock owner).Reads fin ts := by
  rintro _ _ ⟨rfl, rfl⟩
  rw [Reader.ownedBlock]
  split
  · next hnone => exact .noBlock ((take?_eq_none_iff (by decide)).1 hnone)
  · next r hr hsome =>
    obtain ⟨t, hs, ht⟩ := skip_of_take? hsome
    exact .ownedBlock hs ht (ih.shorter .block hr ⟨rfl, rfl⟩)

theorem reads_guarded {opening closing owner : String}
    (ih : Clause.ReadsBelow fin ((Clause.guarded opening closing owner).weight ts)) :
    (Clause.guarded opening closing owner).Reads fin ts := by
  rintro _ _ ⟨rfl, rfl⟩
  rw [Reader.guarded]
  split
  · next hnone => exact .unopened ((take?_eq_none_iff (by decide)).1 hnone)
  · next r hr hsome =>
    obtain ⟨t, hs, ht⟩ := skip_of_take? hsome
    have hu := (expression fin false r).bound
    dsimp only
    split
    · next hnone =>
      exact .unclosed hs ht (parses_expression fin r) ((take?_eq_none_iff (by decide)).1 hnone)
    · next v hv hsome =>
      obtain ⟨q, hs', hq⟩ := skip_of_take? hsome
      exact .guarded hs ht (parses_expression fin r) hs' hq
        (ih.shorter (.ownedBlock owner) (by omega) ⟨rfl, rfl⟩)

theorem reads_conditional (ih : Clause.ReadsBelow fin (Clause.conditional.weight ts)) :
    Clause.conditional.Reads fin ts := by
  rintro _ _ ⟨rfl, rfl⟩
  rw [Reader.conditional]
  split
  · next hnone => exact .unopenedIf ((take?_eq_none_iff (by decide)).1 hnone)
  · next r hr hsome =>
    obtain ⟨t, hs, ht⟩ := skip_of_take? hsome
    have hu := (expression fin false r).bound
    dsimp only
    split
    · next hnone =>
      exact .unclosedIf hs ht (parses_expression fin r) ((take?_eq_none_iff (by decide)).1 hnone)
    · next v hv hsome =>
      obtain ⟨q, hs', hq⟩ := skip_of_take? hsome
      have hblock : (Clause.ownedBlock "if").Reads fin v := ih.shorter _ (by omega)
      have hw := (ownedBlock fin "if" v).bound
      split
      · next hl =>
        exact .conditional hs ht (parses_expression fin r) hs' hq hl (hblock ⟨rfl, rfl⟩)
          (ih.shorter .alternative (by omega) ⟨rfl, rfl⟩)
      · next hl => exact .blocklessIf hs ht (parses_expression fin r) hs' hq hl (hblock ⟨rfl, rfl⟩)

theorem reads_alternative (ih : Clause.ReadsBelow fin (Clause.alternative.weight ts)) :
    Clause.alternative.Reads fin ts := by
  rintro _ _ ⟨rfl, rfl⟩
  rw [Reader.alternative]
  split
  · next hnone => exact .noElse ((take?_eq_none_iff (by decide)).1 hnone)
  · next r hr hsome =>
    obtain ⟨t, hs, ht⟩ := skip_of_take? hsome
    dsimp only
    split
    · next u hu hsome =>
      obtain ⟨q, hs', hq⟩ := skip_of_take? hsome
      exact .otherwiseIf hs ht hs' hq (ih.shorter .conditional (by omega) ⟨rfl, rfl⟩)
    · next hnone =>
      exact .otherwise hs ht ((take?_eq_none_iff (by decide)).1 hnone)
        (ih.shorter (.ownedBlock "else") hr ⟨rfl, rfl⟩)

theorem reads_loop (ih : Clause.ReadsBelow fin (Clause.loop.weight ts)) :
    Clause.loop.Reads fin ts := by
  rintro _ _ ⟨rfl, rfl⟩
  cases hs : skip ts with
  | nil =>
    rw [Reader.loop]
    exact hs ▸ Clause.Parses.noLoop (by rw [hs]; decide)
  | cons t r =>
    rw [Reader.loop]
    split
    · next hk => exact .eachLoop hs hk (ih.shorter .each (length_lt_of_skip hs) ⟨rfl, rfl⟩)
    · next hk => exact .countedLoop hs hk (ih.shorter .counted (length_lt_of_skip hs) ⟨rfl, rfl⟩)
    · exact hs ▸ Clause.Parses.noLoop (by rw [hs]; simp_all [kindAt])

theorem reads_counted (ih : Clause.ReadsBelow fin (Clause.counted.weight ts)) :
    Clause.counted.Reads fin ts := by
  rintro _ _ ⟨rfl, rfl⟩
  rw [Reader.counted]
  split
  · next hnone => exact .noStart ((take?_eq_none_iff (by decide)).1 hnone)
  · next r hr hsome =>
    obtain ⟨t, hs, ht⟩ := skip_of_take? hsome
    have hu := (expression fin false r).bound
    dsimp only
    split
    · next hnone =>
      exact .noBound hs ht (parses_expression fin r) ((take?_eq_none_iff (by decide)).1 hnone)
    · next v hv hsome =>
      obtain ⟨q, hs', hq⟩ := skip_of_take? hsome
      have hw := (expression fin false v).bound
      exact .counted hs ht (parses_expression fin r) hs' hq (parses_expression fin v)
        (ih.shorter (.ownedBlock "for") (by omega) ⟨rfl, rfl⟩)

theorem reads_each (ih : Clause.ReadsBelow fin (Clause.each.weight ts)) :
    Clause.each.Reads fin ts := by
  rintro _ _ ⟨rfl, rfl⟩
  rw [Reader.each]
  split
  · next hs => exact .noVariable (by rw [hs]; decide)
  · next t r hs =>
    have hlen := length_lt_of_skip hs
    split
    · next ht =>
      split
      · next hr => exact .noIn hs ht (by rw [hr]; decide)
      · next u w hr =>
        have hw := length_lt_of_skip hr
        have hskip := length_skip_le r
        split
        · next hu => exact .typed hs ht hr hu (ih.shorter .collection (by omega) ⟨rfl, rfl⟩)
        · next hu =>
          have hdoes :
              Clause.collection.Does fin (skip r) (collection fin (u :: w)).events
                (collection fin (u :: w)).rest := by
            rw [hr]
            exact ⟨rfl, rfl⟩
          exact .untyped hs ht (by rwa [hr]) (ih.shorter .collection (by omega) hdoes)
        · exact .noIn hs ht (by rw [hr]; simp_all [kindAt])
    · next ht => exact .noVariable (by rwa [hs])

theorem reads_collection (ih : Clause.ReadsBelow fin (Clause.collection.weight ts)) :
    Clause.collection.Reads fin ts := by
  rintro _ _ ⟨rfl, rfl⟩
  rw [Reader.collection]
  split
  · next hnone => exact .noCollection ((take?_eq_none_iff (by decide)).1 hnone)
  · next r hr hsome =>
    obtain ⟨t, hs, ht⟩ := skip_of_take? hsome
    have hu := (expression fin false r).bound
    exact .collection hs ht (parses_expression fin r)
      (ih.shorter (.ownedBlock "for each") (by omega) ⟨rfl, rfl⟩)

theorem reads_switch (ih : Clause.ReadsBelow fin (Clause.switch.weight ts)) :
    Clause.switch.Reads fin ts := by
  rintro _ _ ⟨rfl, rfl⟩
  rw [Reader.switch]
  split
  · next hnone => exact .unopenedSwitch ((take?_eq_none_iff (by decide)).1 hnone)
  · next r hr hsome =>
    obtain ⟨t, hs, ht⟩ := skip_of_take? hsome
    have hu := (expression fin false r).bound
    dsimp only
    split
    · next hnone =>
      exact .unclosedSwitch hs ht (parses_expression fin r)
        ((take?_eq_none_iff (by decide)).1 hnone)
    · next v hv hsome =>
      obtain ⟨q, hs', hq⟩ := skip_of_take? hsome
      split
      · next hnone =>
        exact .bodilessSwitch hs ht (parses_expression fin r) hs' hq
          ((take?_eq_none_iff (by decide)).1 hnone)
      · next w hw hsome =>
        obtain ⟨l, hs'', hl⟩ := skip_of_take? hsome
        exact .switch hs ht (parses_expression fin r) hs' hq hs'' hl
          (ih.shorter .entries (by omega) ⟨rfl, rfl⟩)

theorem reads_entries (ih : Clause.ReadsBelow fin (Clause.entries.weight ts)) :
    Clause.entries.Reads fin ts := by
  rintro _ _ ⟨rfl, rfl⟩
  rw [Reader.entries]
  split
  · next hs => exact (Clause.Parses.noEntries (.inr hs)).congr rfl hs
  · next t r hs =>
    have hlen := length_lt_of_skip hs
    split
    · next hk => exact (Clause.Parses.noEntries (.inl (by rwa [hs]))).congr rfl hs
    · next hk =>
      have hu := (guarded fin "'(' after 'case'" "')' after case expression" "case" r).bound
      exact .caseEntry hs hk (ih.shorter (.guarded _ _ _) hlen ⟨rfl, rfl⟩)
        (ih.shorter .entries (by omega) ⟨rfl, rfl⟩)
    · next hk =>
      have hu := (ownedBlock fin "default" r).bound
      exact .defaultEntry hs hk (ih.shorter (.ownedBlock _) hlen ⟨rfl, rfl⟩)
        (ih.shorter .entries (by omega) ⟨rfl, rfl⟩)
    · exact .noEntry hs (by simp_all) (ih.shorter .entries hlen ⟨rfl, rfl⟩)

end Coverage

/-- The rules say what every part does with all tokens. -/
theorem Clause.reads (fin : Position) (c : Clause) (ts : List Token) : c.Reads fin ts := by
  induction hw : c.weight ts using Nat.strongRecOn generalizing c ts with | _ w ih
  have below : Clause.ReadsBelow fin (c.weight ts) := fun d us hlt => ih _ (hw ▸ hlt) d us rfl
  cases c with
  | returned => exact reads_returned
  | terminator => exact reads_terminator fin ts
  | statement => exact reads_statement below
  | statements => exact reads_statements below
  | block => exact reads_block below
  | ownedBlock owner => exact reads_ownedBlock below
  | guarded opening closing owner => exact reads_guarded below
  | conditional => exact reads_conditional below
  | alternative => exact reads_alternative below
  | loop => exact reads_loop below
  | counted => exact reads_counted below
  | each => exact reads_each below
  | collection => exact reads_collection below
  | switch => exact reads_switch below
  | entries => exact reads_entries below

theorem Clause.exists_does (fin : Position) (c : Clause) (ts : List Token) :
    ∃ e r, c.Does fin ts e r := by
  cases c <;> exact ⟨_, _, rfl, rfl⟩

/-- Some rule applies to every part and all tokens. -/
theorem Clause.goes (fin : Position) (c : Clause) (ts : List Token) :
    ∃ e r, c.Parses fin ts e r := by
  obtain ⟨e, r, h⟩ := Clause.exists_does fin c ts
  exact ⟨e, r, Clause.reads fin c ts h⟩

/-- Each rule says what the reader does. -/
theorem Clause.Parses.does {fin : Position} {ts : List Token} (h : c.Parses fin ts e r) :
    c.Does fin ts e r := by
  obtain ⟨e', r', hdoes⟩ := Clause.exists_does fin c ts
  obtain ⟨rfl, rfl⟩ := h.unique (Clause.reads fin c ts hdoes)
  exact hdoes

/-- The rules say exactly what the reader does. -/
theorem Clause.parses_iff {fin : Position} {ts : List Token} :
    c.Parses fin ts e r ↔ c.Does fin ts e r := ⟨Parses.does, fun h => Clause.reads fin c ts h⟩

/-- The number of tokens that a part takes, if there are any. -/
def Clause.taken : Clause → Nat
  | .statement => 1
  | _ => 0

theorem Clause.Parses.length_le {fin : Position} {ts : List Token} (h : c.Parses fin ts e r) :
    r.length ≤ ts.length - c.taken := by
  have hdoes := h.does
  cases c <;> rw [Clause.Does] at hdoes
  case loop => exact Nat.le_trans (hdoes.rest_eq ▸ Reading.bound _) (length_skip_le ts)
  all_goals exact hdoes.rest_eq ▸ Reading.bound _

/-- What a part leaves is the end of the tokens. -/
theorem Clause.Parses.suffix {fin : Position} {ts : List Token} (h : c.Parses fin ts e r) :
    r <:+ ts := by
  induction h with
  | returnNothing _ => exact (rest_require_suffix _ _ _ _).trans (skip_suffix _)
  | returnValue _ h => exact (rest_require_suffix _ _ _ _).trans (h.suffix.trans (skip_suffix _))
  | ended _ | noBlock _ | noElse _ | noEntries _ => exact skip_suffix _
  | noSemicolon hs _ => exact hs ▸ skip_suffix _
  | semicolon hs _ | stray hs _ | empty hs _ | noSimple hs _ => exact suffix_of_skip hs
  | noStatement _ => exact List.nil_suffix
  | headed hs _ _ ih | ownedBlock hs _ _ ih | otherwise hs _ _ _ ih | eachLoop hs _ _ ih
  | countedLoop hs _ _ ih
  | noEntry hs _ _ ih => exact ih.trans (suffix_of_skip hs)
  | simple hs _ _ h _ ih => exact ih.trans (h.suffix.trans (hs ▸ skip_suffix _))
  | noMore _ => exact List.suffix_rfl
  | more _ _ _ ih ih' => exact ih'.trans ((skip_suffix _).trans ih)
  | block _ ih => exact (rest_require_suffix _ _ _ _).trans ih
  | unopened _ | unopenedIf _ | noStart _ | noVariable _ | noCollection _ | unopenedSwitch _ =>
    exact rest_abandon_suffix _ _ _
  | noLoop _ => exact (rest_abandon_suffix _ _ _).trans (skip_suffix _)
  | noIn hs _ _ => exact (rest_abandon_suffix _ _ _).trans (suffix_of_skip hs)
  | unclosed hs _ h _ | unclosedIf hs _ h _ | noBound hs _ h _ | unclosedSwitch hs _ h _ =>
    exact (rest_abandon_suffix _ _ _).trans (h.suffix.trans (suffix_of_skip hs))
  | guarded hs _ h hs' _ _ ih | blocklessIf hs _ h hs' _ _ _ ih =>
    exact ih.trans ((suffix_of_skip hs').trans (h.suffix.trans (suffix_of_skip hs)))
  | conditional hs _ h hs' _ _ _ _ ih ih' =>
    exact ih'.trans (ih.trans ((suffix_of_skip hs').trans (h.suffix.trans (suffix_of_skip hs))))
  | otherwiseIf hs _ hs' _ _ ih | typed hs _ hs' _ _ ih =>
    exact ih.trans ((suffix_of_skip hs').trans (suffix_of_skip hs))
  | counted hs _ h hs' _ h' _ ih =>
    exact ih.trans
      (h'.suffix.trans ((suffix_of_skip hs').trans (h.suffix.trans (suffix_of_skip hs))))
  | untyped hs _ _ _ ih => exact ih.trans ((skip_suffix _).trans (suffix_of_skip hs))
  | collection hs _ h _ ih => exact ih.trans (h.suffix.trans (suffix_of_skip hs))
  | bodilessSwitch hs _ h hs' _ _ =>
    exact (skip_suffix _).trans ((suffix_of_skip hs').trans (h.suffix.trans (suffix_of_skip hs)))
  | switch hs _ h hs' _ hs'' _ _ ih =>
    exact (rest_require_suffix _ _ _ _).trans
      (ih.trans
        ((suffix_of_skip hs'').trans
          ((suffix_of_skip hs').trans (h.suffix.trans (suffix_of_skip hs)))))
  | caseEntry hs _ _ _ ih ih' | defaultEntry hs _ _ _ ih ih' =>
    exact ih'.trans (ih.trans (suffix_of_skip hs))

/-- A program is read one statement after another. -/
theorem program_of_parses {fin : Position} {ts u : List Token} {t : Token} (hs : skip ts = t :: r)
    (h : Clause.Parses fin .statement (t :: r) e u) : program fin ts = e ++ program fin u := by
  obtain ⟨rfl, rfl⟩ := h.does
  exact program_of_skip_cons hs fin

end Partitura.ManuScript.Reader
