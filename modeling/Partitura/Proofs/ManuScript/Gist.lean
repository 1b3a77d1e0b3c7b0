import Partitura.Proofs.ManuScript.Trees

/-!
# What the reader tells about a tree

Of the events that the reader tells, some count for the names and the course of a body: names that
are assigned, bound and read, statements, returns and blocks. They are the `gist`; what else is told
are complaints that show in the tokens and the calls and members that the language is asked for.
`Tree.tells` reads the gist off a tree. `Tree.conveyed` says that the reader tells the same about
the tokens of a tree, finds no error in them and takes exactly these tokens, whatever follows them
that cannot go on with them.

The proof goes along the tree, with one lemma for each rule of the grammar, and uses the rules of
the reader without opening its parts. Two things need care. The reader goes through the operators of
a level and through the accesses of a chain in loops, while the grammar has the longest phrase on
the left; so `Conveyed` leaves open, for these phrases, how the loop goes on. And an `if` looks past
the comments behind it for an `else`, while every other statement ends before them; so `Conveyed`
leaves open whether comments behind a statement are taken with it.
-/

namespace Partitura.ManuScript

open Grammar Reader

variable {n : Nat} {l : Leaf .lparen} {a : Tree (.expression 0)} {r : Leaf .rparen}
  {b : Tree .block} {c : Leaf .semicolon}
  {k : Leaf .kwFor} {x : Leaf .identifier} {i : Leaf .kwIn}

/-! ## The gist of events -/

/-- What is concluded from the names and the course of a body as a whole. -/
def Issue.isConclusion : Issue → Bool
  | .undefinedVariable _ | .unusedVariable _ | .unreachable => true
  | _ => false

/-- An event that counts for the names and the course of a body. -/
def Event.isGist : Event → Bool
  | .issue d => d.issue.isConclusion
  | .called .. | .accessed .. => false
  | _ => true

/-- The events that count for the names and the course of a body. -/
def gist (es : List Event) : List Event := es.filter Event.isGist

theorem gist_cons_of_isGist {e : Event} (h : e.isGist = true) (es : List Event) :
    gist (e :: es) = e :: gist es :=
  List.filter_cons_of_pos h

/-! ## Calls and members -/

section Calls

variable {env : Surroundings} {name : Token} {d : Diagnostic} {got : Nat}

/-- No error, and nothing that is concluded about a body as a whole. -/
def Diagnostic.IsMild (d : Diagnostic) : Prop := d.isError = false ∧ d.issue.isConclusion = false

theorem arityComplaints_mild {arities : List Arity}
    (h : d ∈ Surroundings.arityComplaints name got arities) : d.IsMild := by
  unfold Surroundings.arityComplaints at h
  split at h
  · cases h
  · rw [List.mem_singleton.1 h]
    exact ⟨rfl, rfl⟩

theorem callComplaints_mild {receiver : Option String}
    (h : d ∈ env.callComplaints receiver name got) : d.IsMild := by
  unfold Surroundings.callComplaints at h
  split at h
  · split at h
    · rw [List.mem_singleton.1 h]
      exact ⟨rfl, rfl⟩
    · exact arityComplaints_mild h
  · split at h
    · exact arityComplaints_mild h
    · split at h
      · cases h
      · rw [List.mem_singleton.1 h]
        exact ⟨rfl, rfl⟩

theorem memberComplaints_mild {receiver : String} (h : d ∈ env.memberComplaints receiver name) :
    d.IsMild := by
  unfold Surroundings.memberComplaints at h
  split at h
  · cases h
  · split at h
    · cases h
    · rw [List.mem_singleton.1 h]
      exact ⟨rfl, rfl⟩

end Calls

/-- Events without errors that have the gist `g`. -/
structure Bears (es g : List Event) : Prop where
  gist_eq : gist es = g
  harmless : es.all Event.isHarmless = true

section Bears

variable {es fs g h : List Event}

theorem Bears.nil : Bears [] [] := ⟨rfl, rfl⟩

theorem Bears.append (hes : Bears es g) (hfs : Bears fs h) : Bears (es ++ fs) (g ++ h) := by
  refine ⟨?_, by rw [List.all_append, hes.harmless, hfs.harmless]; rfl⟩
  rw [gist, List.filter_append, ← hes.gist_eq, ← hfs.gist_eq]
  rfl

theorem Bears.cons {e : Event} (hgist : e.isGist = true) (hharmless : e.isHarmless = true)
    (hes : Bears es g) : Bears (e :: es) (e :: g) :=
  ⟨by rw [gist_cons_of_isGist hgist, hes.gist_eq],
    by rw [List.all_cons, hharmless, hes.harmless]; rfl⟩

/-- What has no gist may stand before. -/
theorem Bears.behind (hfs : Bears fs []) (hes : Bears es g) : Bears (fs ++ es) g := hfs.append hes

/-- What has no gist may stand behind. -/
theorem Bears.before (hes : Bears es g) (hfs : Bears fs []) : Bears (es ++ fs) g := by
  have happend := hes.append hfs
  rwa [List.append_nil] at happend

theorem bears_comparedToSelf (op : Token) (lhs rhs : Option Token) :
    Bears (comparedToSelf op lhs rhs) [] := by
  unfold comparedToSelf
  split
  · split <;> exact ⟨rfl, rfl⟩
  · exact .nil

theorem bears_zeroDivisor (op : Token) (ts : List Token) : Bears (zeroDivisor op ts) [] := by
  unfold zeroDivisor
  split
  · exact .nil
  · split
    · split <;> exact ⟨rfl, rfl⟩
    · exact .nil

theorem bears_remarkBefore (n : Nat) (op : Token) (r : List Token) :
    Bears (remarkBefore n op r) [] := by
  unfold remarkBefore
  split
  · exact bears_zeroDivisor op r
  · exact .nil

theorem bears_remarkAfter (n : Nat) (op : Token) (lhs rhs : Option Token) :
    Bears (remarkAfter n op lhs rhs) [] := by
  unfold remarkAfter
  split
  · exact bears_comparedToSelf op lhs rhs
  · exact .nil

theorem bears_constantCondition (ts : List Token) : Bears (constantCondition ts) [] := by
  unfold constantCondition
  split
  · exact .nil
  · split
    · exact ⟨rfl, rfl⟩
    · exact ⟨rfl, rfl⟩
    · split <;> exact ⟨rfl, rfl⟩
    · exact .nil

theorem bears_accessOf (receiver : Option String) (name : Token) :
    Bears (accessOf receiver name) [] := by
  cases receiver <;> exact ⟨rfl, rfl⟩

theorem bears_callOf (receiver : Option String) (last : Option Token) (n : Nat) :
    Bears (callOf receiver last n) [] := by
  cases last <;> exact ⟨rfl, rfl⟩

end Bears

/-! ## The gist of a tree -/

/-- The target of an assignment: the first of some tokens, if it is a name before the sign of
assignment and `s` says that such a sign assigns. -/
def assigned (s : Bool) : List Token → List Event
  | x :: e :: _ => if s = true ∧ x.kind = .identifier ∧ e.kind = .assign then [.assigned x] else []
  | _ => []

/-- The start of a statement that has these tokens. -/
def started : List Token → List Event
  | [] => []
  | t :: _ => [.statement t.pos]

/-- What a name tells that stands as an operand before a token of the kind `k`. -/
def mentioned (t : Token) (k : Kind) : Event := .read t (k == .lparen || k == .dot)

/-- The gist of what a tree says. `s` says that it is an expression, or part of one, that stands as
a statement; `rest` are the tokens behind the tree. -/
@[simp] def Grammar.Tree.tells : {σ : Symbol} → Tree σ → Bool → List Token → List Event
  | _, .atom t, _, rest => if t.1.kind = .identifier then [mentioned t.1 (kindAt rest)] else []
  | _, .group _ a r, s, rest => assigned s a.tokens ++ a.tells s (r.1 :: rest)
  | _, .member a d i, s, rest => a.tells s (d.1 :: i.1 :: rest)
  | _, .call a l b r, s, rest =>
    a.tells s (l.1 :: (b.tokens ++ r.1 :: rest)) ++ b.tells s (r.1 :: rest)
  | _, .index a l b r, s, rest =>
    a.tells s (l.1 :: (b.tokens ++ r.1 :: rest)) ++ (assigned s b.tokens ++ b.tells s (r.1 :: rest))
  | _, .property a c i, s, rest => a.tells s (c.1 :: i.1 :: rest)
  | _, .link a, s, rest => a.tells s rest
  | _, .sign _ a, s, rest => a.tells s rest
  | _, .operand _ a, s, rest => a.tells s rest
  | _, .operation a op b, s, rest => a.tells s (op.1 :: (b.tokens ++ rest)) ++ b.tells s rest
  | _, .noArgument, _, _ => []
  | _, .firstArgument a b, s, rest =>
    assigned s a.tokens ++ a.tells s (b.tokens ++ rest) ++ b.tells s rest
  | _, .lastArgument, _, _ => []
  | _, .nextArgument _ a b, s, rest =>
    assigned s a.tokens ++ a.tells s (b.tokens ++ rest) ++ b.tells s rest
  | _, .block _ a r, s, rest => .opened :: (a.tells s (r.1 :: rest) ++ [.closed])
  | _, .noStatement, _, _ => []
  | _, .nextStatement a b, s, rest =>
    started a.tokens ++ a.tells s (b.tokens ++ rest) ++ b.tells s rest
  | _, .empty _, _, _ => []
  | _, .simple a c, _, rest => assigned true a.tokens ++ a.tells true (c.1 :: rest)
  | _, .nested a, s, rest => a.tells s rest
  | _, .returnNothing _ _, _, _ => [.returned]
  | _, .returnValue _ a c, _, rest => a.tells false (c.1 :: rest) ++ [.returned]
  | _, .ifThen _ a, s, rest => a.tells s rest
  | _, .whileDo _ _ a r b, s, rest => a.tells false (r.1 :: (b.tokens ++ rest)) ++ b.tells s rest
  | _, .forTo _ x _ a t b c, s, rest =>
    .bound x.1.text ::
      (a.tells false (t.1 :: (b.tokens ++ (c.tokens ++ rest))) ++
        b.tells false (c.tokens ++ rest) ++
      c.tells s rest)
  | _, .forEach _ _ x _ a b, s, rest =>
    .bound x.1.text :: (a.tells false (b.tokens ++ rest) ++ b.tells s rest)
  | _, .forEachTyped _ _ _ x _ a b, s, rest =>
    .bound x.1.text :: (a.tells false (b.tokens ++ rest) ++ b.tells s rest)
  | _, .switch _ _ a r o b c, s, rest =>
    a.tells false (r.1 :: o.1 :: (b.tokens ++ c.1 :: rest)) ++ b.tells s (c.1 :: rest)
  | _, .conditional _ a r b c, s, rest =>
    a.tells false (r.1 :: (b.tokens ++ (c.tokens ++ rest))) ++
      b.tells s (c.tokens ++ rest) ++ c.tells s rest
  | _, .noElse, _, _ => []
  | _, .otherwise _ b, s, rest => b.tells s rest
  | _, .otherwiseIf _ _ a, s, rest => a.tells s rest
  | _, .noEntry, _, _ => []
  | _, .caseEntry _ _ a r b c, s, rest =>
    a.tells false (r.1 :: (b.tokens ++ (c.tokens ++ rest))) ++
      b.tells s (c.tokens ++ rest) ++ c.tells s rest
  | _, .defaultEntry _ b c, s, rest => b.tells s (c.tokens ++ rest) ++ c.tells s rest

/-! ## Parts of the reader -/

/-- A part of the reader for expressions finds no error in tokens, tells something with the gist `g`
about them and leaves `r`. -/
def Reader.Phrase.Conveys (fin : Position) (p : Phrase) (ts : List Token) (g : List Event)
    (r : List Token) : Prop :=
  ∃ e, p.Parses fin ts e r ∧ Bears e g

/-- A part of the reader for statements finds no error in tokens, tells something with the gist `g`
about them and leaves `r`. -/
def Reader.Clause.Conveys (fin : Position) (c : Clause) (ts : List Token) (g : List Event)
    (r : List Token) : Prop :=
  ∃ e, c.Parses fin ts e r ∧ Bears e g

/-- A part of the reader for statements finds no error in tokens, tells something with the gist `g`
about them and leaves `rest`, or what follows the first comments there. -/
def Reader.Clause.ConveysTo (fin : Position) (c : Clause) (ts : List Token) (g : List Event)
    (rest : List Token) : Prop :=
  ∃ u, skip u = skip rest ∧ c.Conveys fin ts g u

/-- What the reader tells about the tokens of a tree has its gist, and exactly these tokens are
taken, whatever follows them that cannot go on with them. -/
def Grammar.Tree.Conveyed (fin : Position) : {σ : Symbol} → Tree σ → Prop
  | .expression n, a =>
    ∀ s rest out g, Stops n rest → (∀ lhs, (Phrase.tail s n lhs).Conveys fin rest g out) →
      (Phrase.level s n).Conveys fin (a.tokens ++ rest) (a.tells s rest ++ g) out
  | .chain, a => ∀ s rest out g, kindAt rest ≠ .comment →
      (∀ receiver last, (Phrase.links s receiver last).Conveys fin rest g out) →
      (Phrase.chain s).Conveys fin (a.tokens ++ rest) (a.tells s rest ++ g) out
  | .arguments, a => ∀ s c rest, c.kind = .rparen →
      ∃ n, (Phrase.arguments s n).Conveys fin (a.tokens ++ c :: rest) (a.tells s (c :: rest)) rest
  | .moreArguments, a => ∀ s m c rest, c.kind = .rparen →
      ∃ n, (Phrase.moreArguments s m n).Conveys fin (a.tokens ++ c :: rest)
        (a.tells s (c :: rest)) rest
  | .block, b =>
    ∀ s rest, ∃ l r, b.tokens = l :: r ∧ l.kind = .lbrace ∧
      Clause.block.Conveys fin (r ++ rest) (b.tells s rest) rest
  | .statement, a => ∀ s rest, kindAt (skip rest) ≠ .kwElse →
      Clause.statement.ConveysTo fin (a.tokens ++ rest) (started a.tokens ++ a.tells s rest) rest
  | .statements, a => ∀ s rest, kindAt rest = .rbrace ∨ rest = [] →
      Clause.statements.Conveys fin (a.tokens ++ rest) (a.tells s rest) rest
  | .conditional, a => ∀ s rest, kindAt (skip rest) ≠ .kwElse →
      Clause.conditional.ConveysTo fin (a.tokens ++ rest) (a.tells s rest) rest
  | .alternative, a => ∀ s rest, kindAt (skip rest) ≠ .kwElse →
      Clause.alternative.ConveysTo fin (a.tokens ++ rest) (a.tells s rest) rest
  | .entries, a =>
    ∀ s rest, kindAt rest = .rbrace →
      Clause.entries.Conveys fin (a.tokens ++ rest) (a.tells s rest) rest

/-! ### Rules for phrases without faults -/

section Rules

variable {fin : Position} {s : Bool} {ts out rest : List Token} {e g g' : List Event}

theorem yields_require {k : Kind} {t : Token} (ht : t.kind = k) (hk : k ≠ .comment)
    (fin : Position) (what : String) (r : List Token) :
    Yields (require fin k what (t :: r)) [] r := by
  rw [require, take?_of_skip (skip_cons (by rwa [ht]) r) ht]
  exact ⟨rfl, rfl⟩

theorem conveys_tail_stop (h : kindAt rest ∉ operators n) (fin : Position) (s : Bool)
    (lhs : Option Token) : (Phrase.tail s n lhs).Conveys fin rest [] rest :=
  ⟨[], .noOperator h, .nil⟩

/-- What the links tell, whatever they stand behind. -/
def LinksConvey (fin : Position) (s : Bool) (ts : List Token) (g : List Event) (out : List Token) :
    Prop :=
  ∀ receiver last, (Phrase.links s receiver last).Conveys fin ts g out

theorem conveys_links_stop (hc : kindAt rest ≠ .comment) (h : kindAt rest ∉ linkKinds)
    (fin : Position) (s : Bool) : LinksConvey fin s rest [] rest := by
  intro receiver last
  have hskip := skip_of_kindAt hc
  exact ⟨[], .congr (.noLink (by rwa [hskip])) rfl hskip, .nil⟩

theorem parses_group {l r : Token} (hl : l.kind = .lparen) (hr : r.kind = .rparen)
    (h : Phrase.Parses fin (.expression s) ts e (r :: out)) :
    Phrase.Parses fin (.operand s) (l :: ts) e out := by
  have hclose := yields_require hr (by decide) fin "')' after expression" out
  exact .congr (.group (skip_cons (by rw [hl]; decide) ts) hl h)
    (by rw [closeGroup, hclose.events_eq, List.append_nil])
    hclose.rest_eq

theorem conveys_links_index {l r : Token} (hl : l.kind = .lbracket) (hr : r.kind = .rbracket)
    (h : (Phrase.expression s).Conveys fin ts g (r :: rest))
    (hout : LinksConvey fin s rest g' out) : LinksConvey fin s (l :: ts) (g ++ g') out := by
  intro receiver last
  obtain ⟨e, h, hbears⟩ := h
  obtain ⟨e', hlinks, hbears'⟩ := hout none none
  have hclose := yields_require hr (by decide) fin "']' after index" rest
  have hrest : (closeIndex fin (r :: rest)).rest = rest := hclose.rest_eq
  refine ⟨_, .index (skip_cons (by rw [hl]; decide) ts) hl h (by rwa [hrest]), ?_⟩
  rw [closeIndex, hclose.events_eq, List.append_nil]
  exact hbears.append hbears'

theorem conveys_links_call {l : Token} (hl : l.kind = .lparen)
    (h : (Phrase.arguments s n).Conveys fin ts g rest) (hout : LinksConvey fin s rest g' out) :
    LinksConvey fin s (l :: ts) (g ++ g') out := by
  intro receiver last
  obtain ⟨e, h, hbears⟩ := h
  obtain ⟨e', hlinks, hbears'⟩ := hout none none
  exact ⟨_, .call (skip_cons (by rw [hl]; decide) ts) hl h hlinks,
    (hbears.before (bears_callOf receiver last n)).append hbears'⟩

theorem conveys_links_member {d i : Token} (hd : d.kind = .dot) (hi : i.kind = .identifier)
    (hc : kindAt rest ≠ .comment) (hout : LinksConvey fin s rest g out) :
    LinksConvey fin s (d :: i :: rest) g out := by
  intro receiver last
  have hskip := skip_of_kindAt hc
  have hdot := skip_cons (by rw [hd]; decide) (i :: rest)
  have hname := skip_cons (by rw [hi]; decide) rest
  by_cases hp : kindAt rest = .lparen
  · obtain ⟨e, h, hbears⟩ := hout receiver (some i)
    exact ⟨e, .method hdot hd hname hi (by rwa [hskip]) (by rwa [hskip]), hbears⟩
  · obtain ⟨e, h, hbears⟩ := hout none (some i)
    exact ⟨_, .member hdot hd hname hi (by rwa [hskip]) (by rwa [hskip]),
      (bears_accessOf receiver i).behind hbears⟩

theorem conveys_links_property {c i : Token} (hc : c.kind = .colon) (hi : i.kind = .identifier)
    (hout : LinksConvey fin s rest g out) : LinksConvey fin s (c :: i :: rest) g out := by
  intro receiver last
  obtain ⟨e, h, hbears⟩ := hout none none
  exact ⟨e, .property (skip_cons (by rw [hc]; decide) _) hc hi h, hbears⟩

/-- The target that the reader sees before a phrase and what follows it is the target of the
phrase. -/
theorem bears_targetOf (s : Bool) (hne : ts ≠ []) (hrest : kindAt rest ≠ .assign) :
    Bears (targetOf s (ts ++ rest)) (assigned s ts) := by
  obtain ⟨x, r, rfl⟩ := List.exists_cons_of_ne_nil hne
  cases s with
  | false => cases r <;> simpa [targetOf, assigned] using Bears.nil
  | true =>
    cases r with
    | nil =>
      cases rest with
      | nil => exact .nil
      | cons t rest =>
        have ht : t.kind ≠ .assign := hrest
        simpa [targetOf, assignmentTarget, assigned, ht] using Bears.nil
    | cons e r =>
      simp only [targetOf, if_true, List.cons_append, assignmentTarget, assigned, true_and]
      split
      · refine .cons rfl rfl ?_
        split
        · split <;> exact ⟨rfl, rfl⟩
        · exact .nil
      · exact .nil

end Rules

/-! ## Expressions -/

section Expressions

variable {fin : Position} {rest : List Token}

theorem Grammar.Tree.Conveyed.operation (h : a.Conveyed fin)
    (hrest : kindAt rest ∈ closers) (s : Bool) :
    (Phrase.operation s).Conveys fin (a.tokens ++ rest)
    (assigned s a.tokens ++ a.tells s rest) rest := by
  have hstop := stops_of_closers hrest 0
  have hassign : kindAt rest ≠ .assign := by
    rintro hk
    rw [hk] at hrest
    revert hrest
    decide
  obtain ⟨e, hlevel, hbears⟩ := h s rest rest [] hstop fun lhs =>
    conveys_tail_stop (not_mem_operators_of_closers hrest 0) fin s lhs
  have hskip := skip_of_kindAt hstop.comment
  rw [List.append_nil] at hbears
  exact ⟨_, .congr (.operation hlevel (by rwa [hskip])) rfl hskip,
    (bears_targetOf s (ne_nil_of_kindAt (not_ends_of_starts a.fronted).1) hassign).append hbears⟩

theorem Grammar.Tree.Conveyed.expression (h : a.Conveyed fin)
    (hrest : kindAt rest ∈ closers) (s : Bool) :
    (Phrase.expression s).Conveys fin (a.tokens ++ rest)
    (assigned s a.tokens ++ a.tells s rest) rest := by
  obtain ⟨-, hcomment, hends, -⟩ := not_ends_of_starts (kindAt_append_of_starts a.fronted rest)
  obtain ⟨e, hoperation, hbears⟩ := h.operation hrest s
  have hskip := skip_of_kindAt hcomment
  exact ⟨e, .expression (by rwa [hskip]) (by rwa [hskip]), hbears⟩

/-- An expression that is no statement assigns nothing. -/
theorem Grammar.Tree.Conveyed.value (h : a.Conveyed fin) (hrest : kindAt rest ∈ closers) :
    (Phrase.expression false).Conveys fin (a.tokens ++ rest) (a.tells false rest) rest := by
  have hnone : assigned false a.tokens = [] := by
    unfold assigned
    split <;> simp
  have hexpression := h.expression hrest false
  rwa [hnone, List.nil_append] at hexpression

theorem conveyed_atom (t : LeafOf atoms) : (Tree.atom t).Conveyed fin := by
  intro s rest out g _ hout
  obtain ⟨e, hlinks, hbears⟩ := hout (chainHead (t.1 :: rest)).1 (chainHead (t.1 :: rest)).2
  have hskip : skip (t.1 :: rest) = t.1 :: rest := by
    refine skip_cons (fun hk => ?_) rest
    have ht := t.2
    rw [hk] at ht
    revert ht
    decide
  by_cases hname : t.1.kind = .identifier
  · refine ⟨_, .chain (.name hskip hname) hlinks, ?_⟩
    rw [Tree.tells, if_pos hname]
    exact .cons rfl rfl hbears
  · have hliteral : t.1.kind ∈ literals := by
      have hall : ∀ k ∈ atoms, k ≠ .identifier → k ∈ literals := by decide
      exact hall _ t.2 hname
    refine ⟨_, .chain (.literal hskip hliteral) hlinks, ?_⟩
    rwa [Tree.tells, if_neg hname]

theorem conveyed_group (h : a.Conveyed fin) : (Tree.group l a r).Conveyed fin := by
  intro s rest out g _ hout
  obtain ⟨e, hexpression, hbears⟩ := h.expression (closes r.2 (by decide) rest) s
  rw [Tree.tokens, List.cons_append, List.append_assoc, List.singleton_append]
  obtain ⟨e', hlinks, hbears'⟩ :=
    hout (chainHead (l.1 :: (a.tokens ++ r.1 :: rest))).1
      (chainHead (l.1 :: (a.tokens ++ r.1 :: rest))).2
  exact ⟨_, .chain (parses_group l.2 r.2 hexpression) hlinks, hbears.append hbears'⟩

theorem conveyed_member {a : Tree .chain} {d : Leaf .dot} {i : Leaf .identifier}
    (h : a.Conveyed fin) : (Tree.member a d i).Conveyed fin := by
  intro s rest out g hrest hout
  rw [Tree.tokens, List.append_assoc, Tree.tells]
  exact h s (d.1 :: i.1 :: rest) out g (by rw [kindAt_cons, d.2]; decide)
    (conveys_links_member d.2 i.2 hrest hout)

theorem conveyed_property {a : Tree .chain} {c : Leaf .colon} {i : Leaf .identifier}
    (h : a.Conveyed fin) : (Tree.property a c i).Conveyed fin := by
  intro s rest out g _ hout
  rw [Tree.tokens, List.append_assoc, Tree.tells]
  exact h s (c.1 :: i.1 :: rest) out g (by rw [kindAt_cons, c.2]; decide)
    (conveys_links_property c.2 i.2 hout)

theorem conveyed_call {a : Tree .chain} {b : Tree .arguments} (ha : a.Conveyed fin)
    (hb : b.Conveyed fin) : (Tree.call a l b r).Conveyed fin := by
  intro s rest out g _ hout
  obtain ⟨n, harguments⟩ := hb s r.1 rest r.2
  rw [Tree.tokens, List.append_assoc, List.cons_append, List.append_assoc, List.singleton_append,
    Tree.tells, List.append_assoc]
  exact ha s _ out _ (by rw [kindAt_cons, l.2]; decide) (conveys_links_call l.2 harguments hout)

theorem conveyed_index {a : Tree .chain} {l : Leaf .lbracket} {b : Tree (.expression 0)}
    {r : Leaf .rbracket} (ha : a.Conveyed fin) (hb : b.Conveyed fin) :
    (Tree.index a l b r).Conveyed fin := by
  intro s rest out g _ hout
  have hexpression := hb.expression (closes r.2 (by decide) rest) s
  rw [Tree.tokens, List.append_assoc, List.cons_append, List.append_assoc, List.singleton_append,
    Tree.tells, List.append_assoc]
  exact ha s _ out _ (by rw [kindAt_cons, l.2]; decide)
    (conveys_links_index l.2 r.2 hexpression hout)

theorem conveyed_link {a : Tree .chain} (h : a.Conveyed fin) : (Tree.link a).Conveyed fin := by
  intro s rest out g hstop hout
  have hsign : kindAt (a.tokens ++ rest) ∉ signs := by
    have hall : ∀ k ∈ .lparen :: atoms, k ≠ .fin ∧ k ∉ signs := by decide
    obtain ⟨hfin, hsigns⟩ := hall _ a.fronted
    rwa [kindAt_append hfin]
  -- on the last level nothing is taken behind a chain
  obtain ⟨e', htail, hbears'⟩ := hout none
  obtain ⟨rfl, rfl⟩ : Yields (nothing rest) e' out := htail.does
  obtain ⟨e, hchain, hbears⟩ :=
    h s rest rest [] hstop.comment (conveys_links_stop hstop.comment hstop.link fin s)
  rw [← hbears'.gist_eq]
  exact ⟨e, .unsigned (Nat.le_refl 5) hsign hchain, hbears⟩

theorem conveyed_sign {t : LeafOf signs} {a : Tree (.expression 5)} (h : a.Conveyed fin) :
    (Tree.sign t a).Conveyed fin := by
  intro s rest out g hstop hout
  obtain ⟨e, hlevel, hbears⟩ := h s rest out g hstop hout
  exact ⟨e, .sign (Nat.le_refl 5) t.2 hlevel, hbears⟩

/-- An operand of the next level that no operator of that level follows. -/
theorem Grammar.Tree.Conveyed.next {a : Tree (.expression (n + 1))} (h : a.Conveyed fin)
    (hrest : Stops n rest) (s : Bool) :
    (Phrase.level s (n + 1)).Conveys fin (a.tokens ++ rest) (a.tells s rest) rest := by
  have hlevel :=
    h s rest rest [] hrest.succ fun lhs =>
      conveys_tail_stop (hrest.operator (n + 1) (by omega)) fin s lhs
  rwa [List.append_nil] at hlevel

theorem conveyed_operand {hn : n < 5} {a : Tree (.expression (n + 1))} (h : a.Conveyed fin) :
    (Tree.operand hn a).Conveyed fin := by
  intro s rest out g hstop hout
  obtain ⟨e, hlevel, hbears⟩ := h.next hstop s
  obtain ⟨e', htail, hbears'⟩ := hout (alone? (a.tokens ++ rest) rest)
  exact ⟨e ++ e', .level hn hlevel htail, hbears.append hbears'⟩

theorem conveyed_operation {a : Tree (.expression n)} {op : LeafOf (operators n)}
    {b : Tree (.expression (n + 1))} (ha : a.Conveyed fin) (hb : b.Conveyed fin) :
    (Tree.operation a op b).Conveyed fin := by
  intro s rest out g hstop hout
  obtain ⟨-, hcomment, -, hends⟩ := not_ends_of_starts (kindAt_append_of_starts b.fronted rest)
  have hskip := skip_of_kindAt hcomment
  have hoperand : operandOf n (b.tokens ++ rest) = b.tokens ++ rest := by
    unfold operandOf
    split
    · exact hskip
    · rfl
  obtain ⟨e, hlevel, hbears⟩ := hb.next hstop s
  rw [Tree.tokens, List.append_assoc, List.cons_append, Tree.tells, List.append_assoc]
  refine ha s (op.1 :: (b.tokens ++ rest)) out (b.tells s rest ++ g)
    (stops_operator op.2 _) fun lhs => ?_
  obtain ⟨e', htail, hbears'⟩ := hout (alone? (b.tokens ++ rest) rest)
  exact ⟨_, .operator op.2 (fun _ => by rwa [hskip]) (by rwa [hoperand]) (by rwa [hoperand]),
    (((bears_remarkBefore n op.1 _).behind hbears).before (bears_remarkAfter n op.1 lhs _)).append
      hbears'⟩

theorem conveyed_noArgument : Tree.noArgument.Conveyed fin := by
  intro s c rest hc
  have hskip : skip (c :: rest) = c :: rest := skip_cons (by rw [hc]; decide) rest
  have hclose := yields_require hc (by decide) fin "')' to close function call" rest
  have hrule : Phrase.Parses fin (.arguments s 0) (c :: rest) _ _ := .noArgument (by rwa [hskip])
  rw [hskip, closeCall, hclose.events_eq, hclose.rest_eq] at hrule
  exact ⟨0, [], hrule, .nil⟩

theorem conveyed_lastArgument : Tree.lastArgument.Conveyed fin := by
  intro s m c rest hc
  have hclose := yields_require hc (by decide) fin "')' to close function call" rest
  rw [Tree.tokens, List.nil_append]
  exact ⟨m, [],
    .congr (.lastArgument (by rw [kindAt_cons, hc]; decide)) hclose.events_eq hclose.rest_eq, .nil⟩

/-- Behind an argument stands a comma or the end of the call. -/
theorem closes_moreArguments (b : Tree .moreArguments) {c : Token} (hc : c.kind = .rparen)
    (rest : List Token) : kindAt (b.tokens ++ c :: rest) ∈ closers := by
  cases b with
  | lastArgument => exact closes hc (by decide) rest
  | nextArgument d _ _ => exact closes d.2 (by decide) _

/-- An argument does not start with the end of the call. -/
theorem argument_starts (a : Tree (.expression 0)) (rest : List Token) :
    skip (a.tokens ++ rest) = a.tokens ++ rest ∧ kindAt (a.tokens ++ rest) ≠ .rparen := by
  obtain ⟨-, hcomment, hends, -⟩ := not_ends_of_starts (kindAt_append_of_starts a.fronted rest)
  refine ⟨skip_of_kindAt hcomment, fun hp => ?_⟩
  rw [hp] at hends
  cases hends

theorem conveyed_firstArgument {b : Tree .moreArguments} (ha : a.Conveyed fin)
    (hb : b.Conveyed fin) : (Tree.firstArgument a b).Conveyed fin := by
  intro s c rest hc
  obtain ⟨hskip, hparen⟩ := argument_starts a (b.tokens ++ c :: rest)
  obtain ⟨e, hexpression, hbears⟩ := ha.expression (closes_moreArguments b hc rest) s
  obtain ⟨n, e', hmore, hbears'⟩ := hb s 1 c rest hc
  rw [Tree.tokens, List.append_assoc]
  exact ⟨n, _, .firstArgument (by rwa [hskip]) (by rwa [hskip]) hmore, hbears.append hbears'⟩

theorem conveyed_nextArgument {c : Leaf .comma} {b : Tree .moreArguments} (ha : a.Conveyed fin)
    (hb : b.Conveyed fin) : (Tree.nextArgument c a b).Conveyed fin := by
  intro s m d rest hd
  obtain ⟨hskip, hparen⟩ := argument_starts a (b.tokens ++ d :: rest)
  obtain ⟨e, hexpression, hbears⟩ := ha.expression (closes_moreArguments b hd rest) s
  obtain ⟨n, e', hmore, hbears'⟩ := hb s (m + 1) d rest hd
  rw [Tree.tokens, List.cons_append, List.append_assoc]
  exact ⟨n, _, .nextArgument c.2 (by rwa [hskip]) (by rwa [hskip]) hmore, hbears.append hbears'⟩

end Expressions

/-! ## Statements -/

section Statements

variable {fin : Position} {ts rest out : List Token} {g : List Event}

theorem Reader.Clause.Conveys.to {c : Clause} (h : c.Conveys fin ts g rest) :
    c.ConveysTo fin ts g rest := ⟨rest, rfl, h⟩

/-- A statement that starts with a keyword or a brace. -/
theorem conveys_headed {k : Token} {c : Clause} (hc : headed k.kind = some c)
    (h : c.ConveysTo fin ts g out) :
    Clause.statement.ConveysTo fin (k :: ts) (.statement k.pos :: g) out := by
  obtain ⟨u, hu, e, h, hbears⟩ := h
  have hskip : skip (k :: ts) = k :: ts := by
    refine skip_cons (fun hk => ?_) ts
    rw [hk] at hc
    cases hc
  exact ⟨u, hu, _, .headed hskip hc h, .cons rfl rfl hbears⟩

theorem Grammar.Tree.Conveyed.owned (h : b.Conveyed fin) (owner : String) (s : Bool)
    (rest : List Token) :
    (Clause.ownedBlock owner).Conveys fin (b.tokens ++ rest) (b.tells s rest) rest := by
  obtain ⟨l, r, htokens, hl, e, hblock, hbears⟩ := h s rest
  rw [htokens]
  exact ⟨e, .ownedBlock (skip_cons (by rw [hl]; decide) _) hl hblock, hbears⟩

theorem kindAt_block (b : Tree .block) (rest : List Token) :
    kindAt (b.tokens ++ rest) = .lbrace := by
  cases b with | block l _ _ => exact l.2

theorem closes_block (b : Tree .block) (rest : List Token) :
    kindAt (b.tokens ++ rest) ∈ closers := by
  rw [kindAt_block]
  decide

theorem kindAt_skip_block (b : Tree .block) (rest : List Token) :
    kindAt (skip (b.tokens ++ rest)) = .lbrace := by
  rw [skip_of_kindAt (by rw [kindAt_block]; decide), kindAt_block]

/-- A condition in parentheses and the block that it guards. -/
theorem conveys_guarded (ha : a.Conveyed fin) (hb : b.Conveyed fin)
    (opening closing owner : String) (s : Bool) (rest : List Token) :
    (Clause.guarded opening closing owner).Conveys fin
      (l.1 :: (a.tokens ++ r.1 :: (b.tokens ++ rest)))
      (a.tells false (r.1 :: (b.tokens ++ rest)) ++ b.tells s rest) rest := by
  obtain ⟨e, hvalue, hbears⟩ := ha.value (closes r.2 (by decide) (b.tokens ++ rest))
  obtain ⟨e', howned, hbears'⟩ := hb.owned owner s rest
  exact ⟨_, .guarded (l.skip_eq (by decide) _) l.2 hvalue (r.skip_eq (by decide) _) r.2 howned,
    hbears.append hbears'⟩

theorem conveyed_block {l : Leaf .lbrace} {a : Tree .statements} {r : Leaf .rbrace}
    (h : a.Conveyed fin) : (Tree.block l a r).Conveyed fin := by
  intro s rest
  refine ⟨l.1, a.tokens ++ [r.1], rfl, l.2, ?_⟩
  obtain ⟨e, hstatements, hbears⟩ := h s (r.1 :: rest) (.inl r.2)
  have hclose := yields_require r.2 (by decide) fin "'\x7d' to close block" rest
  have hrule := Clause.Parses.block hstatements
  rw [closeBlock, hclose.events_eq, hclose.rest_eq, List.append_nil] at hrule
  rw [List.append_assoc, List.singleton_append]
  exact ⟨_, hrule, .cons rfl rfl (hbears.append (.cons rfl rfl .nil))⟩

theorem conveyed_noStatement : Tree.noStatement.Conveyed fin :=
  fun _ _ hrest => ⟨[], .noMore hrest, .nil⟩

/-- Where statements end at a brace or with the text, they start with no comment and no `else`. -/
theorem statements_start (b : Tree .statements) (hrest : kindAt rest = .rbrace ∨ rest = []) :
    kindAt (b.tokens ++ rest) ≠ .comment ∧ kindAt (b.tokens ++ rest) ≠ .kwElse := by
  cases b with
  | noStatement =>
    rcases hrest with hrest | rfl
    · rw [Tree.tokens, List.nil_append, hrest]
      decide
    · decide
  | nextStatement a b =>
    obtain ⟨t, r, ht, hcomment, helse, -⟩ := a.statement_tokens
    rw [Tree.tokens, ht]
    exact ⟨hcomment, helse⟩

theorem conveyed_nextStatement {a : Tree .statement} {b : Tree .statements} (ha : a.Conveyed fin)
    (hb : b.Conveyed fin) : (Tree.nextStatement a b).Conveyed fin := by
  intro s rest hrest
  obtain ⟨hcomment, helse⟩ := statements_start b hrest
  have hskip := skip_of_kindAt hcomment
  obtain ⟨u, hu, e, hstatement, hbears⟩ := ha s (b.tokens ++ rest) (by rwa [hskip])
  obtain ⟨e', hstatements, hbears'⟩ := hb s rest hrest
  have hgoes :
      ¬ (kindAt (a.tokens ++ (b.tokens ++ rest)) = .rbrace ∨
        a.tokens ++ (b.tokens ++ rest) = []) := by
    obtain ⟨t, r, ht, -, -, hbrace⟩ := a.statement_tokens
    simp [ht, hbrace]
  rw [Tree.tokens, List.append_assoc]
  exact ⟨_, .more hgoes hstatement (by rwa [hu, hskip]), hbears.append hbears'⟩

theorem conveyed_empty : (Tree.empty c).Conveyed fin :=
  fun _ rest _ => ⟨rest, rfl, _, .empty (c.skip_eq (by decide) rest) c.2, rfl, rfl⟩

theorem conveyed_simple (h : a.Conveyed fin) : (Tree.simple a c).Conveyed fin := by
  intro s rest _
  have hstart : kindAt a.tokens ∈ starts := a.fronted
  obtain ⟨e, hoperation, hbears⟩ := h.operation (closes c.2 (by decide) rest) true
  have hend : Clause.Parses fin .terminator (c.1 :: rest) [] rest :=
    .semicolon (c.skip_eq (by decide) rest) (by rw [c.2]; decide)
  rw [Tree.tokens, List.append_assoc, List.singleton_append, Tree.tells]
  cases hcons : a.tokens with
  | nil =>
    rw [hcons] at hstart
    exact absurd hstart (by decide)
  | cons t r =>
    rw [hcons] at hstart hoperation hbears
    have hall : ∀ k ∈ starts, k ≠ .comment ∧ headed k = none ∧ endsExpression k = false := by decide
    obtain ⟨hcomment, hheaded, hends⟩ := hall t.kind hstart
    exact ⟨rest, rfl, _, .simple (skip_cons hcomment _) hheaded hends hoperation hend,
      .cons rfl rfl (hbears.before .nil)⟩

theorem conveyed_nested {a : Tree .block} (h : a.Conveyed fin) : (Tree.nested a).Conveyed fin := by
  intro s rest _
  obtain ⟨l, r, htokens, hl, hblock⟩ := h s rest
  rw [Tree.tokens, htokens, Tree.tells]
  exact conveys_headed (by rw [hl]; rfl) hblock.to

theorem conveyed_returnNothing {k : Leaf .kwReturn} : (Tree.returnNothing k c).Conveyed fin := by
  intro s rest _
  have hskip : skip (c.1 :: rest) = c.1 :: rest := c.skip_eq (by decide) rest
  have hrule : Clause.Parses fin .returned (c.1 :: rest) _ _ :=
    .returnNothing (by rw [hskip, kindAt_cons, c.2]; decide)
  have hclose := yields_require c.2 (by decide) fin "';' after return statement" rest
  rw [hskip, closeReturn, hclose.events_eq, hclose.rest_eq] at hrule
  exact conveys_headed (by rw [k.2]; rfl) ⟨rest, rfl, _, hrule, rfl, rfl⟩

theorem conveyed_returnValue {k : Leaf .kwReturn} (h : a.Conveyed fin) :
    (Tree.returnValue k a c).Conveyed fin := by
  intro s rest _
  have hstart := kindAt_append_of_starts a.fronted (c.1 :: rest)
  have hskip : skip (a.tokens ++ c.1 :: rest) = a.tokens ++ c.1 :: rest :=
    skip_of_kindAt (not_ends_of_starts hstart).2.1
  have hvalue : kindAt (a.tokens ++ c.1 :: rest) ∉ returnEnds := by
    have hall : ∀ k ∈ starts, k ∉ returnEnds := by decide
    exact hall _ hstart
  obtain ⟨e, hexpression, hbears⟩ := h.value (closes c.2 (by decide) rest)
  have hrule : Clause.Parses fin .returned (a.tokens ++ c.1 :: rest) _ _ :=
    .returnValue (by rwa [hskip]) (by rw [hskip]; exact hexpression)
  have hclose := yields_require c.2 (by decide) fin "';' after return statement" rest
  rw [closeReturn, hclose.events_eq, hclose.rest_eq, List.append_nil] at hrule
  rw [Tree.tokens, List.cons_append, List.append_assoc, List.singleton_append]
  exact conveys_headed (by rw [k.2]; rfl) ⟨rest, rfl, _, hrule, hbears.append (.cons rfl rfl .nil)⟩

theorem conveyed_ifThen {k : Leaf .kwIf} {a : Tree .conditional} (h : a.Conveyed fin) :
    (Tree.ifThen k a).Conveyed fin :=
  fun s rest hrest => conveys_headed (by rw [k.2]; rfl) (h s rest hrest)

theorem conveyed_whileDo {k : Leaf .kwWhile} (ha : a.Conveyed fin) (hb : b.Conveyed fin) :
    (Tree.whileDo k l a r b).Conveyed fin := by
  intro s rest _
  rw [Tree.tokens, List.cons_append, List.cons_append, List.append_assoc, List.cons_append]
  exact conveys_headed (by rw [k.2]; rfl) (conveys_guarded ha hb _ _ _ s rest).to

theorem conveyed_forTo {e : Leaf .assign} {t : Leaf .kwTo} {b : Tree (.expression 0)}
    {c : Tree .block} (ha : a.Conveyed fin) (hb : b.Conveyed fin) (hc : c.Conveyed fin) :
    (Tree.forTo k x e a t b c).Conveyed fin := by
  intro s rest _
  obtain ⟨ea, hfirst, hbearsa⟩ := ha.value (closes t.2 (by decide) (b.tokens ++ (c.tokens ++ rest)))
  obtain ⟨eb, hlast, hbearsb⟩ := hb.value (closes_block c rest)
  obtain ⟨ec, howned, hbearsc⟩ := hc.owned "for" s rest
  have hcounted :
      Clause.Parses fin .counted (e.1 :: (a.tokens ++ t.1 :: (b.tokens ++ (c.tokens ++ rest))))
        (ea ++ eb ++ ec) rest :=
    .counted (e.skip_eq (by decide) _) e.2 hfirst (t.skip_eq (by decide) _) t.2 hlast howned
  rw [Tree.tokens, List.cons_append, List.cons_append, List.cons_append, List.append_assoc,
    List.cons_append, List.append_assoc]
  exact conveys_headed (by rw [k.2]; rfl)
    ⟨rest, rfl, _, .countedLoop (x.skip_eq (by decide) _) x.2 hcounted,
      .cons rfl rfl ((hbearsa.append hbearsb).append hbearsc)⟩

/-- What a loop runs over and its block. -/
theorem conveys_collection (ha : a.Conveyed fin) (hb : b.Conveyed fin) (s : Bool)
    (rest : List Token) : Clause.collection.Conveys fin (i.1 :: (a.tokens ++ (b.tokens ++ rest)))
      (a.tells false (b.tokens ++ rest) ++ b.tells s rest) rest := by
  obtain ⟨ea, hvalue, hbearsa⟩ := ha.value (closes_block b rest)
  obtain ⟨eb, howned, hbearsb⟩ := hb.owned "for each" s rest
  exact ⟨_, .collection (i.skip_eq (by decide) _) i.2 hvalue howned, hbearsa.append hbearsb⟩

theorem conveyed_forEach {e : Leaf .kwEach} (ha : a.Conveyed fin) (hb : b.Conveyed fin) :
    (Tree.forEach k e x i a b).Conveyed fin := by
  intro s rest _
  obtain ⟨ec, hcollection, hbears⟩ := conveys_collection (i := i) ha hb s rest
  have hskip := i.skip_eq (by decide) (a.tokens ++ (b.tokens ++ rest))
  have heach :
      Clause.Parses fin .each (x.1 :: i.1 :: (a.tokens ++ (b.tokens ++ rest)))
        (.bound x.1.text :: ec) rest :=
    .untyped (x.skip_eq (by decide) _) x.2 (by rw [hskip]; exact i.2)
      (by rw [hskip]; exact hcollection)
  rw [Tree.tokens, List.cons_append, List.cons_append, List.cons_append, List.cons_append,
    List.append_assoc]
  exact conveys_headed (by rw [k.2]; rfl)
    ⟨rest, rfl, _, .eachLoop (e.skip_eq (by decide) _) e.2 heach, .cons rfl rfl hbears⟩

theorem conveyed_forEachTyped {e : Leaf .kwEach} {t : Leaf .identifier} (ha : a.Conveyed fin)
    (hb : b.Conveyed fin) : (Tree.forEachTyped k e t x i a b).Conveyed fin := by
  intro s rest _
  obtain ⟨ec, hcollection, hbears⟩ := conveys_collection (i := i) ha hb s rest
  have heach :
      Clause.Parses fin .each (t.1 :: x.1 :: i.1 :: (a.tokens ++ (b.tokens ++ rest)))
        (.bound x.1.text :: ec) rest :=
    .typed (t.skip_eq (by decide) _) t.2 (x.skip_eq (by decide) _) x.2 hcollection
  rw [Tree.tokens, List.cons_append, List.cons_append, List.cons_append, List.cons_append,
    List.cons_append, List.append_assoc]
  exact conveys_headed (by rw [k.2]; rfl)
    ⟨rest, rfl, _, .eachLoop (e.skip_eq (by decide) _) e.2 heach, .cons rfl rfl hbears⟩

theorem conveyed_switch {k : Leaf .kwSwitch} {o : Leaf .lbrace} {b : Tree .entries}
    {c : Leaf .rbrace} (ha : a.Conveyed fin) (hb : b.Conveyed fin) :
    (Tree.switch k l a r o b c).Conveyed fin := by
  intro s rest _
  obtain ⟨ea, hvalue, hbearsa⟩ :=
    ha.value (closes r.2 (by decide) (o.1 :: (b.tokens ++ c.1 :: rest)))
  obtain ⟨eb, hentries, hbearsb⟩ := hb s (c.1 :: rest) c.2
  have hrule :=
    Clause.Parses.switch (l.skip_eq (by decide) _) l.2 hvalue (r.skip_eq (by decide) _) r.2
      (o.skip_eq (by decide) _) o.2
    hentries
  have hclose := yields_require c.2 (by decide) fin "'\x7d' to close switch" rest
  rw [closeSwitch, hclose.events_eq, hclose.rest_eq, List.append_nil] at hrule
  rw [Tree.tokens, List.cons_append, List.cons_append, List.append_assoc, List.cons_append,
    List.cons_append, List.append_assoc, List.singleton_append]
  exact conveys_headed (by rw [k.2]; rfl) ⟨rest, rfl, _, hrule, hbearsa.append hbearsb⟩

theorem conveyed_conditional {c : Tree .alternative} (ha : a.Conveyed fin) (hb : b.Conveyed fin)
    (hc : c.Conveyed fin) : (Tree.conditional l a r b c).Conveyed fin := by
  intro s rest hrest
  obtain ⟨ea, hvalue, hbearsa⟩ := ha.value (closes r.2 (by decide) (b.tokens ++ (c.tokens ++ rest)))
  obtain ⟨eb, howned, hbearsb⟩ := hb.owned "if" s (c.tokens ++ rest)
  obtain ⟨u, hu, ec, halternative, hbearsc⟩ := hc s rest hrest
  rw [Tree.tokens, List.cons_append, List.append_assoc, List.cons_append, List.append_assoc]
  refine ⟨u, hu, _,
    .conditional (l.skip_eq (by decide) _) l.2 hvalue (r.skip_eq (by decide) _) r.2
      (kindAt_skip_block b _) howned
    halternative, ?_⟩
  exact (((bears_constantCondition _).behind hbearsa).append hbearsb).append hbearsc

theorem conveyed_noElse : Tree.noElse.Conveyed fin :=
  fun _ rest hrest => ⟨skip rest, skip_skip rest, [], .noElse hrest, .nil⟩

theorem conveyed_otherwise {e : Leaf .kwElse} (h : b.Conveyed fin) :
    (Tree.otherwise e b).Conveyed fin := by
  intro s rest _
  obtain ⟨eb, howned, hbears⟩ := h.owned "else" s rest
  have hif : kindAt (skip (b.tokens ++ rest)) ≠ .kwIf := by
    rw [kindAt_skip_block]
    decide
  exact ⟨rest, rfl, eb, .otherwise (e.skip_eq (by decide) _) e.2 hif howned, hbears⟩

theorem conveyed_otherwiseIf {e : Leaf .kwElse} {i : Leaf .kwIf} {a : Tree .conditional}
    (h : a.Conveyed fin) : (Tree.otherwiseIf e i a).Conveyed fin := by
  intro s rest hrest
  obtain ⟨u, hu, ea, hconditional, hbears⟩ := h s rest hrest
  exact ⟨u, hu, ea,
    .otherwiseIf (e.skip_eq (by decide) _) e.2 (i.skip_eq (by decide) _) i.2 hconditional, hbears⟩

theorem conveyed_noEntry : Tree.noEntry.Conveyed fin := by
  intro s rest hrest
  have hskip : skip rest = rest := skip_of_kindAt (by rw [hrest]; decide)
  rw [Tree.tokens, List.nil_append]
  exact ⟨[], .congr (.noEntries (.inl (by rwa [hskip]))) rfl hskip, .nil⟩

theorem conveyed_caseEntry {k : Leaf .kwCase} {c : Tree .entries} (ha : a.Conveyed fin)
    (hb : b.Conveyed fin) (hc : c.Conveyed fin) : (Tree.caseEntry k l a r b c).Conveyed fin := by
  intro s rest hrest
  obtain ⟨eg, hguarded, hbears⟩ :=
    conveys_guarded (l := l) (r := r) ha hb "'(' after 'case'" "')' after case expression" "case" s
    (c.tokens ++ rest)
  obtain ⟨ec, hentries, hbearsc⟩ := hc s rest hrest
  rw [Tree.tokens, List.cons_append, List.cons_append, List.append_assoc, List.cons_append,
    List.append_assoc]
  exact ⟨_, .caseEntry (k.skip_eq (by decide) _) k.2 hguarded hentries, hbears.append hbearsc⟩

theorem conveyed_defaultEntry {k : Leaf .kwDefault} {c : Tree .entries} (hb : b.Conveyed fin)
    (hc : c.Conveyed fin) : (Tree.defaultEntry k b c).Conveyed fin := by
  intro s rest hrest
  obtain ⟨eb, howned, hbearsb⟩ := hb.owned "default" s (c.tokens ++ rest)
  obtain ⟨ec, hentries, hbearsc⟩ := hc s rest hrest
  rw [Tree.tokens, List.cons_append, List.append_assoc]
  exact ⟨_, .defaultEntry (k.skip_eq (by decide) _) k.2 howned hentries, hbearsb.append hbearsc⟩

end Statements

/-- **Every phrase of the grammar is read without errors,** and what the reader tells about it has
the gist of its tree. -/
theorem Grammar.Tree.conveyed (fin : Position) {σ : Symbol} (a : Tree σ) : a.Conveyed fin := by
  induction a with
  | atom t => exact conveyed_atom t
  | group _ _ _ ih => exact conveyed_group ih
  | member _ _ _ ih => exact conveyed_member ih
  | call _ _ _ _ iha ihb => exact conveyed_call iha ihb
  | index _ _ _ _ iha ihb => exact conveyed_index iha ihb
  | property _ _ _ ih => exact conveyed_property ih
  | link _ ih => exact conveyed_link ih
  | sign _ _ ih => exact conveyed_sign ih
  | operand _ _ ih => exact conveyed_operand ih
  | operation _ _ _ iha ihb => exact conveyed_operation iha ihb
  | noArgument => exact conveyed_noArgument
  | firstArgument _ _ iha ihb => exact conveyed_firstArgument iha ihb
  | lastArgument => exact conveyed_lastArgument
  | nextArgument _ _ _ iha ihb => exact conveyed_nextArgument iha ihb
  | block _ _ _ ih => exact conveyed_block ih
  | noStatement => exact conveyed_noStatement
  | nextStatement _ _ iha ihb => exact conveyed_nextStatement iha ihb
  | empty _ => exact conveyed_empty
  | simple _ _ ih => exact conveyed_simple ih
  | nested _ ih => exact conveyed_nested ih
  | returnNothing _ _ => exact conveyed_returnNothing
  | returnValue _ _ _ ih => exact conveyed_returnValue ih
  | ifThen _ _ ih => exact conveyed_ifThen ih
  | whileDo _ _ _ _ _ iha ihb => exact conveyed_whileDo iha ihb
  | forTo _ _ _ _ _ _ _ iha ihb ihc => exact conveyed_forTo iha ihb ihc
  | forEach _ _ _ _ _ _ iha ihb => exact conveyed_forEach iha ihb
  | forEachTyped _ _ _ _ _ _ _ iha ihb => exact conveyed_forEachTyped iha ihb
  | switch _ _ _ _ _ _ _ iha ihb => exact conveyed_switch iha ihb
  | conditional _ _ _ _ _ iha ihb ihc => exact conveyed_conditional iha ihb ihc
  | noElse => exact conveyed_noElse
  | otherwise _ _ ih => exact conveyed_otherwise ih
  | otherwiseIf _ _ _ ih => exact conveyed_otherwiseIf ih
  | noEntry => exact conveyed_noEntry
  | caseEntry _ _ _ _ _ _ iha ihb ihc => exact conveyed_caseEntry iha ihb ihc
  | defaultEntry _ _ _ ihb ihc => exact conveyed_defaultEntry ihb ihc

/-- **Programs of the grammar are read to their end,** and what is told about them has no error and
the gist of their trees. -/
theorem bears_program (fin : Position) (a : Tree .statements) :
    Yields (Reader.statements fin a.tokens) (program fin a.tokens) [] ∧ Bears (program fin a.tokens)
    (a.tells false []) := by
  obtain ⟨e, hstatements, hbears⟩ := a.conveyed fin false [] (.inr rfl)
  obtain ⟨hcomment, -⟩ := statements_start a (.inr rfl)
  rw [List.append_nil] at hstatements hcomment
  have hskip := skip_of_kindAt hcomment
  obtain ⟨rfl, hrest⟩ : Yields (Reader.statements fin a.tokens) e [] := hstatements.does
  have hprogram : program fin a.tokens = (Reader.statements fin a.tokens).events := by
    rw [program_eq (by rwa [hskip]), hskip]
  exact ⟨⟨hprogram.symm, hrest⟩, by rwa [hprogram]⟩

end Partitura.ManuScript
