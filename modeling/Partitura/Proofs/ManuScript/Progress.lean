import Partitura.ManuScript.Check
import Partitura.Proofs.ManuScript.Clauses

/-!
# The reader gets on

Whatever tokens it is given, the reader comes to their end. Many of its ways out of a fault take
nothing, so that it gets on is not a matter of one part alone: a statement takes a token that is no
comment (`length_rest_statement_lt`), and so does each turn of a loop after which the loop goes on
(`Loop.turned`).

A loop of the reader is written there as a recursion. Here its turns are told one by one:
`Loop.turn` says what one turn does, and `Loop.ends` that the reader does these turns one after
another and no more of them than there are tokens.
-/

namespace Partitura.ManuScript.Reader

open Grammar

/-- What a reading tells and leaves. -/
def outcome {k : Nat} {ts : List Token} (R : Reading k ts) : List Event × List Token :=
  (R.events, R.rest)

theorem Yields.outcome_eq {k : Nat} {ts r : List Token} {R : Reading k ts} {e : List Event}
    (h : Yields R e r) : outcome R = (e, r) := by
  obtain ⟨rfl, rfl⟩ := h
  rfl

/-! ## Loops and their turns -/

/-- The loops of the reader, with what they keep from turn to turn. -/
inductive Loop where
  /-- All statements of a text. -/
  | program
  /-- The statements of a block. -/
  | block
  /-- The entries of a `switch`. -/
  | switch
  /-- The arguments of a call after the first `n`. -/
  | arguments (s : Bool) (n : Nat)
  /-- The calls, members and indices that follow an operand. -/
  | links (s : Bool) (receiver : Option String) (last : Option Token)
  /-- The search for a brace after a fault. -/
  | search
  /-- The way out of a block after a fault. -/
  | nested (depth : Nat)
deriving DecidableEq, Repr

/-- A kind at which the search for a brace stops. -/
def isBrace (k : Kind) : Bool := k == .lbrace || k == .rbrace

theorem ne_braces (k : Kind) : (k != .lbrace && k != .rbrace) = !isBrace k := by
  rw [isBrace, Bool.not_or]
  rfl

/-- What the reader tells and leaves from the start of a turn on. -/
def Loop.run (fin : Position) (ts : List Token) : Loop → List Event × List Token
  | .program => (Reader.program fin ts, [])
  | .block => outcome (statements fin ts)
  | .switch => outcome (entries fin ts)
  | .arguments s n => outcome (moreArguments fin s n ts).toReading
  | .links s receiver last => outcome (Reader.links fin s receiver last ts)
  | .search => ([], ts.dropWhile fun t => t.kind != .lbrace && t.kind != .rbrace)
  | .nested depth => ([], leaveBlock depth ts)

/-- A turn of the entries of a `switch`. -/
def entryTurn (fin : Position) (ts : List Token) : Option (List Event × List Token) :=
  match skip ts with
  | [] => none
  | t :: r =>
    if t.kind = .rbrace then none
    else if t.kind = .kwCase then
      some (outcome (guarded fin "'(' after 'case'" "')' after case expression" "case" r))
    else if t.kind = .kwDefault then some (outcome (ownedBlock fin "default" r))
    else some ([.issue ⟨t.pos, .switchEntry⟩], r)

/-- A turn of the arguments of a call. -/
def argumentTurn (fin : Position) (s : Bool) (ts : List Token) : Option (List Event × List Token) :=
  match ts with
  | [] => none
  | c :: r =>
    if c.kind = .comma ∧ kindAt (skip r) ≠ .rparen then some (outcome (expression fin s (skip r)))
    else none

/-- A turn of the links of an operand: what it tells, the receiver and the name for the next turn,
and what is left. -/
def linkTurn (fin : Position) (s : Bool) (receiver : Option String) (last : Option Token)
    (ts : List Token) : Option (List Event × (Option String × Option Token) × List Token) :=
  match skip ts with
  | [] => none
  | t :: r =>
    if t.kind = .dot then
      match skip r with
      | [] => none
      | u :: w =>
        if u.kind ≠ .identifier then none
        else if kindAt (skip w) = .lparen then some ([], (receiver, some u), skip w)
        else some (accessOf receiver u, (none, some u), skip w)
    else if t.kind = .lparen then
      let a := Reader.arguments fin s r
      some (a.events ++ callOf receiver last a.count, (none, none), a.rest)
    else if t.kind = .lbracket then
      let x := expression fin s r
      some (x.events ++ (closeIndex fin x.rest).events, (none, none), (closeIndex fin x.rest).rest)
    else if t.kind = .colon then
      match r with
      | [] => none
      | u :: w => if u.kind = .identifier then some ([], (none, none), w) else none
    else none

/-- What one turn of a loop tells, if the loop goes on after it, with the loop and the tokens for
the next turn. -/
def Loop.turn (fin : Position) (ts : List Token) : Loop → Option (List Event × Loop × List Token)
  | .program =>
    if ts = [] then none
    else some ((statement fin ts).events, .program, skip (statement fin ts).rest)
  | .block =>
    if kindAt ts = .rbrace ∨ ts = [] then none
    else some ((statement fin ts).events, .block, skip (statement fin ts).rest)
  | .switch => (entryTurn fin ts).map fun x => (x.1, .switch, x.2)
  | .arguments s n => (argumentTurn fin s ts).map fun x => (x.1, .arguments s (n + 1), x.2)
  | .links s receiver last =>
    (linkTurn fin s receiver last ts).map fun x => (x.1, .links s x.2.1.1 x.2.1.2, x.2.2)
  | .search =>
    match ts with
    | [] => none
    | t :: r => if isBrace t.kind then none else some ([], .search, r)
  | .nested depth =>
    match ts with
    | [] => none
    | t :: r =>
      if depth = 0 then none
      else some ([],
        .nested (if t.kind = .lbrace then depth + 1
          else if t.kind = .rbrace then depth - 1 else depth), r)

/-- What a loop tells and leaves when it does not go on. -/
def Loop.leave (fin : Position) (ts : List Token) : Loop → List Event × List Token
  | .switch => ([], skip ts)
  | .arguments _ _ => outcome (closeCall fin (if kindAt ts = .comma then skip ts.tail else ts))
  | .links _ _ _ =>
    match skip ts with
    | [] => ([], [])
    | t :: r =>
      if t.kind = .dot then
        ([complain fin (skip r) (.missingName "property or method name after '.'")], skip r)
      else if t.kind = .colon then ([complain fin r (.missingName "property name after ':'")], r)
      else ([], t :: r)
  | _ => ([], ts)

/-- The course of a loop: turn after turn, and then the way out. -/
inductive Loop.Ends (fin : Position) :
    Loop → List Token → Nat → List Event → List Token → Prop where
  | leave {ℓ : Loop} {ts : List Token} :
      ℓ.turn fin ts = none → Ends fin ℓ ts 0 (ℓ.leave fin ts).1 (ℓ.leave fin ts).2
  | turn {ℓ ℓ' : Loop} {ts u r : List Token} {e e' : List Event} {n : Nat} :
      ℓ.turn fin ts = some (e, ℓ', u) → Ends fin ℓ' u n e' r → Ends fin ℓ ts (n + 1) (e ++ e') r

/-! ## Statements -/

section Statement

variable {fin : Position} {ts r : List Token} {e : List Event}

/-- A statement passes over comments first. -/
theorem Clause.Parses.of_skip (h : Clause.Parses fin .statement ts e r) :
    Clause.Parses fin .statement (skip ts) e r := by
  have hskip := skip_skip ts
  cases h with
  | noStatement hs => exact .noStatement (hskip.trans hs)
  | stray hs ht => exact .stray (hskip.trans hs) ht
  | empty hs ht => exact .empty (hskip.trans hs) ht
  | headed hs hc h => exact .headed (hskip.trans hs) hc h
  | noSimple hs ht => exact .noSimple (hskip.trans hs) ht
  | simple hs hc hend h h' => exact .simple (hskip.trans hs) hc hend h h'

theorem parses_statement (fin : Position) (ts : List Token) :
    Clause.Parses fin .statement ts (statement fin ts).events (statement fin ts).rest :=
  Clause.parses_iff.2 ⟨rfl, rfl⟩

/-- A statement takes at least one token that is no comment, if there is any. -/
theorem length_rest_statement_lt (fin : Position) (h : skip ts ≠ []) :
    (statement fin ts).rest.length < (skip ts).length := by
  have hle : (statement fin ts).rest.length ≤ (skip ts).length - 1 :=
    (parses_statement fin ts).of_skip.length_le
  have hpos := List.length_pos_iff.2 h
  omega

theorem program_eq_append (fin : Position) (ts : List Token) :
    program fin ts = (statement fin ts).events ++ program fin (skip (statement fin ts).rest) := by
  have hparses := (parses_statement fin ts).of_skip
  rw [program_congr (skip_skip _)]
  cases hs : skip ts with
  | nil =>
    rw [hs] at hparses
    obtain ⟨he, hr⟩ := hparses.does
    rw [program_of_skip_nil hs, ← he, ← hr, statement]
    exact (program_of_skip_nil rfl fin).symm
  | cons t r => exact program_of_parses hs (hs ▸ hparses)

end Statement

/-! ## What a turn does -/

/-- A turn after which the loop goes on takes tokens from the front, and the reader goes on with the
next turn. -/
structure Loop.Turned (fin : Position) (ℓ : Loop) (ts : List Token) (e : List Event) (ℓ' : Loop)
    (u : List Token) : Prop where
  suffix : u <:+ ts
  length_lt : u.length < ts.length
  run_eq : ℓ.run fin ts = (e ++ (ℓ'.run fin u).1, (ℓ'.run fin u).2)

section Turn

variable {fin : Position} {ℓ ℓ' : Loop} {ts r u : List Token} {t : Token} {s : Bool}
  {e : List Event}

theorem Loop.Turned.of_cons (hu : u <:+ r)
    (hrun : ℓ.run fin (t :: r) = (e ++ (ℓ'.run fin u).1, (ℓ'.run fin u).2)) :
    ℓ.Turned fin (t :: r) e ℓ' u :=
  ⟨hu.trans (List.suffix_cons t r), Nat.lt_succ_of_le hu.length_le, hrun⟩

theorem Loop.Turned.of_skip (hs : skip ts = t :: r) (hu : u <:+ r)
    (hrun : ℓ.run fin ts = (e ++ (ℓ'.run fin u).1, (ℓ'.run fin u).2)) : ℓ.Turned fin ts e ℓ' u :=
  ⟨hu.trans (suffix_of_skip hs), Nat.lt_of_le_of_lt hu.length_le (length_lt_of_skip hs), hrun⟩

/-- The turns of the two loops that read statements. -/
theorem turned_statement (hne : ts ≠ [])
    (hrun : ℓ.run fin ts =
      ((statement fin ts).events ++ (ℓ'.run fin (skip (statement fin ts).rest)).1,
        (ℓ'.run fin (skip (statement fin ts).rest)).2)) :
    ℓ.Turned fin ts (statement fin ts).events ℓ' (skip (statement fin ts).rest) := by
  refine ⟨(skip_suffix _).trans (parses_statement fin ts).suffix, ?_, hrun⟩
  have hskip := length_skip_le (statement fin ts).rest
  have hbound := (statement fin ts).bound
  have hpos := List.length_pos_iff.2 hne
  omega

theorem parses_entries (fin : Position) (ts : List Token) :
    Clause.Parses fin .entries ts (entries fin ts).events (entries fin ts).rest :=
  Clause.parses_iff.2 ⟨rfl, rfl⟩

theorem turned_entry (h : entryTurn fin ts = some (e, u)) :
    Loop.switch.Turned fin ts e .switch u := by
  unfold entryTurn at h
  split at h
  · cases h
  next t r hs =>
  split at h
  · cases h
  next hbrace =>
  split at h
  · next hcase =>
    cases h
    have hparses :
        Clause.Parses fin (.guarded "'(' after 'case'" "')' after case expression" "case") r _ _ :=
      Clause.parses_iff.2 ⟨rfl, rfl⟩
    exact .of_skip hs hparses.suffix
      (Clause.Parses.caseEntry hs hcase hparses (parses_entries fin _)).does.outcome_eq
  next hcase =>
  split at h
  · next hdefault =>
    cases h
    have hparses : Clause.Parses fin (.ownedBlock "default") r _ _ := Clause.parses_iff.2 ⟨rfl, rfl⟩
    exact .of_skip hs hparses.suffix
      (Clause.Parses.defaultEntry hs hdefault hparses (parses_entries fin _)).does.outcome_eq
  · next hdefault =>
    cases h
    have hnone : t.kind ∉ [Kind.rbrace, .kwCase, .kwDefault] := by simp [hbrace, hcase, hdefault]
    exact .of_skip hs List.suffix_rfl
      (Clause.Parses.noEntry hs hnone (parses_entries fin _)).does.outcome_eq

theorem parses_moreArguments (fin : Position) (s : Bool) (n : Nat) (ts : List Token) :
    Phrase.Parses fin (.moreArguments s n (moreArguments fin s n ts).count) ts
      (moreArguments fin s n ts).events
      (moreArguments fin s n ts).rest := Phrase.parses_iff.2 ⟨⟨rfl, rfl⟩, rfl⟩

theorem turned_argument (n : Nat) (h : argumentTurn fin s ts = some (e, u)) :
    (Loop.arguments s n).Turned fin ts e (.arguments s (n + 1)) u := by
  unfold argumentTurn at h
  split at h
  · cases h
  next c r =>
  split at h
  · next hc =>
    cases h
    have hparses : Phrase.Parses fin (.expression s) (skip r) _ _ := Phrase.parses_iff.2 ⟨rfl, rfl⟩
    exact .of_cons (hparses.suffix.trans (skip_suffix r))
      (Phrase.Parses.nextArgument hc.1 hc.2 hparses
        (parses_moreArguments fin s (n + 1) _)).does.1.outcome_eq
  · cases h

theorem parses_links (fin : Position) (s : Bool) (receiver : Option String) (last : Option Token)
    (ts : List Token) :
    Phrase.Parses fin (.links s receiver last) ts (links fin s receiver last ts).events
      (links fin s receiver last ts).rest :=
  Phrase.parses_iff.2 ⟨rfl, rfl⟩

theorem turned_link {receiver receiver' : Option String} {last last' : Option Token}
    (h : linkTurn fin s receiver last ts = some (e, (receiver', last'), u)) :
    (Loop.links s receiver last).Turned fin ts e (.links s receiver' last') u := by
  unfold linkTurn at h
  split at h
  · cases h
  next t r hs =>
  split at h
  · next hdot =>
    split at h
    · cases h
    next v w hr =>
    have hw : skip w <:+ r := (skip_suffix w).trans (suffix_of_skip hr)
    split at h
    · cases h
    next hname =>
    rw [Decidable.not_not] at hname
    split at h
    · next hcall =>
      cases h
      exact .of_skip hs hw
        (Phrase.Parses.method hs hdot hr hname hcall (parses_links fin s _ _ _)).does.outcome_eq
    · next hcall =>
      cases h
      exact .of_skip hs hw
        (Phrase.Parses.member hs hdot hr hname hcall (parses_links fin s _ _ _)).does.outcome_eq
  split at h
  · next hparen =>
    cases h
    have hparses : Phrase.Parses fin (.arguments s (arguments fin s r).count) r _ _ :=
      Phrase.parses_iff.2 ⟨⟨rfl, rfl⟩, rfl⟩
    exact .of_skip hs hparses.suffix
      (Phrase.Parses.call hs hparen hparses (parses_links fin s _ _ _)).does.outcome_eq
  split at h
  · next hbracket =>
    cases h
    have hparses : Phrase.Parses fin (.expression s) r _ _ := Phrase.parses_iff.2 ⟨rfl, rfl⟩
    exact .of_skip hs ((rest_require_suffix _ _ _ _).trans hparses.suffix)
      (Phrase.Parses.index hs hbracket hparses (parses_links fin s _ _ _)).does.outcome_eq
  split at h
  · next hcolon =>
    split at h
    · cases h
    next v w =>
    split at h
    · next hname =>
      cases h
      exact .of_skip hs (List.suffix_cons v _)
        (Phrase.Parses.property hs hcolon hname (parses_links fin s _ _ _)).does.outcome_eq
    · cases h
  · cases h

theorem turned_search (h : isBrace t.kind = false) :
    Loop.search.Turned fin (t :: r) [] .search r := by
  refine .of_cons List.suffix_rfl ?_
  rw [Loop.run, List.dropWhile_cons_of_pos (by rw [ne_braces, h]; rfl)]
  rfl

theorem turned_nested {depth : Nat} (h : depth ≠ 0) : (Loop.nested depth).Turned fin (t :: r) []
    (.nested (if t.kind = .lbrace then depth + 1 else if t.kind = .rbrace then depth - 1
      else depth)) r := by
  refine .of_cons List.suffix_rfl ?_
  obtain ⟨d, rfl⟩ := Nat.exists_eq_succ_of_ne_zero h
  rw [Loop.run, Loop.run, leaveBlock]
  split
  · next ht => simp [ht]
  · next ht => simp [ht]
  · next hopen hclose => rw [if_neg hopen, if_neg hclose]; rfl

/-- Each turn after which a loop goes on takes at least one token. -/
theorem Loop.turned (h : ℓ.turn fin ts = some (e, ℓ', u)) : ℓ.Turned fin ts e ℓ' u := by
  cases ℓ with
  | program =>
    rw [Loop.turn] at h
    split at h
    · cases h
    · next hne =>
      cases h
      exact turned_statement hne (by rw [Loop.run, Loop.run, ← program_eq_append])
  | block =>
    rw [Loop.turn] at h
    split at h
    · cases h
    · next hmore =>
      cases h
      have hrest : Clause.Parses fin .statements (skip (statement fin ts).rest) _ _ :=
        Clause.parses_iff.2 ⟨rfl, rfl⟩
      exact turned_statement (fun hnil => hmore (.inr hnil))
        (Clause.Parses.more hmore (parses_statement fin ts) hrest).does.outcome_eq
  | switch =>
    obtain ⟨⟨e, u⟩, hturn, heq⟩ := Option.map_eq_some_iff.1 h
    cases heq
    exact turned_entry hturn
  | arguments s n =>
    obtain ⟨⟨e, u⟩, hturn, heq⟩ := Option.map_eq_some_iff.1 h
    cases heq
    exact turned_argument n hturn
  | links s receiver last =>
    obtain ⟨⟨e, ⟨receiver', last'⟩, u⟩, hturn, heq⟩ := Option.map_eq_some_iff.1 h
    cases heq
    exact turned_link hturn
  | search =>
    cases ts with
    | nil => cases h
    | cons t r =>
      rw [Loop.turn] at h
      split at h
      · cases h
      · next hbrace =>
        cases h
        exact turned_search (Bool.eq_false_iff.2 hbrace)
  | nested depth =>
    cases ts with
    | nil => cases h
    | cons t r =>
      rw [Loop.turn] at h
      split at h
      · cases h
      · next hdepth =>
        cases h
        exact turned_nested hdepth

end Turn

/-! ## How a loop ends -/

section Leave

variable {fin : Position} {ts : List Token} {s : Bool}

theorem run_switch_of_none (h : entryTurn fin ts = none) :
    Loop.switch.run fin ts = ([], skip ts) := by
  have hend : kindAt (skip ts) = .rbrace ∨ skip ts = [] := by
    unfold entryTurn at h
    split at h
    · next hs => exact .inr hs
    · next t r hs =>
      split at h
      · next hbrace => exact .inl (by rw [hs]; exact hbrace)
      · split at h
        · cases h
        · split at h <;> cases h
  exact (Clause.Parses.noEntries hend).does.outcome_eq

theorem run_arguments_of_none (n : Nat) (h : argumentTurn fin s ts = none) :
    (Loop.arguments s n).run fin ts =
      outcome (closeCall fin (if kindAt ts = .comma then skip ts.tail else ts)) := by
  by_cases hcomma : kindAt ts = .comma
  · obtain ⟨c, r, rfl, hc⟩ := exists_of_kindAt hcomma (by decide)
    have hclose : kindAt (skip r) = .rparen := by
      refine Decidable.byContradiction fun hclose => ?_
      rw [argumentTurn, if_pos ⟨hc, hclose⟩] at h
      cases h
    rw [if_pos hcomma]
    exact (Phrase.Parses.lastComma hc hclose).does.1.outcome_eq
  · rw [if_neg hcomma]
    exact (Phrase.Parses.lastArgument hcomma).does.1.outcome_eq

theorem run_links_of_none {receiver : Option String} {last : Option Token}
    (h : linkTurn fin s receiver last ts = none) :
    (Loop.links s receiver last).run fin ts = (Loop.links s receiver last).leave fin ts := by
  rw [Loop.leave]
  cases hs : skip ts with
  | nil => exact (Phrase.Parses.noLink (by rw [hs]; decide)).does.outcome_eq.trans (by rw [hs])
  | cons t r =>
    rw [linkTurn, hs] at h
    by_cases hdot : t.kind = .dot
    · have hname : kindAt (skip r) ≠ .identifier := by
        intro hname
        obtain ⟨u, w, hr, hu⟩ := exists_of_kindAt hname (by decide)
        by_cases hcall : kindAt (skip w) = .lparen <;> simp [hdot, hr, hu, hcall] at h
      simp only [hdot, if_true]
      exact (Phrase.Parses.noMember hs hdot hname).does.outcome_eq
    · by_cases hcolon : t.kind = .colon
      · have hname : kindAt r ≠ .identifier := by
          intro hname
          obtain ⟨u, w, rfl, hu⟩ := exists_of_kindAt hname (by decide)
          simp [hcolon, hu] at h
        simp only [hcolon, reduceCtorEq, if_true, if_false]
        exact (Phrase.Parses.noProperty hs hcolon hname).does.outcome_eq
      · have hlink : kindAt (skip ts) ∉ linkKinds := by
          rw [hs, kindAt_cons]
          intro hmem
          simp only [linkKinds, List.mem_cons, List.not_mem_nil, or_false, hdot, hcolon, false_or]
            at hmem
          rcases hmem with hparen | hbracket
          · simp [hparen] at h
          · simp [hbracket] at h
        simp only [hdot, hcolon, if_false]
        exact (Phrase.Parses.noLink hlink).does.outcome_eq.trans (by rw [hs])

/-- A loop that does not go on leaves. -/
theorem Loop.run_of_none {ℓ : Loop} (h : ℓ.turn fin ts = none) : ℓ.run fin ts = ℓ.leave fin ts := by
  cases ℓ with
  | program =>
    rw [Loop.turn] at h
    split at h
    · next hnil => rw [hnil, Loop.run, program_of_skip_nil rfl]; rfl
    · cases h
  | block =>
    rw [Loop.turn] at h
    split at h
    · next hend => exact (Clause.Parses.noMore hend).does.outcome_eq
    · cases h
  | switch => exact run_switch_of_none (Option.map_eq_none_iff.1 h)
  | arguments s n => exact run_arguments_of_none n (Option.map_eq_none_iff.1 h)
  | links s receiver last => exact run_links_of_none (Option.map_eq_none_iff.1 h)
  | search =>
    cases ts with
    | nil => rfl
    | cons t r =>
      rw [Loop.turn] at h
      split at h
      · next hbrace =>
        rw [Loop.run, List.dropWhile_cons_of_neg (by rw [ne_braces, hbrace]; decide)]
        rfl
      · cases h
  | nested depth =>
    cases ts with
    | nil => cases depth <;> rfl
    | cons t r =>
      rw [Loop.turn] at h
      split at h
      · next hdepth => rw [hdepth]; rfl
      · cases h

/-- Every loop ends, after at most as many turns as there are tokens, and the reader does these
turns. -/
theorem Loop.ends (fin : Position) (ℓ : Loop) (ts : List Token) :
    ∃ n ≤ ts.length, ℓ.Ends fin ts n (ℓ.run fin ts).1 (ℓ.run fin ts).2 := by
  induction hlen : ts.length using Nat.strongRecOn generalizing ℓ ts with | _ k ih
  cases hturn : ℓ.turn fin ts with
  | none =>
    rw [Loop.run_of_none hturn]
    exact ⟨0, Nat.zero_le k, .leave hturn⟩
  | some x =>
    obtain ⟨e, ℓ', u⟩ := x
    obtain ⟨-, hlt, hrun⟩ := Loop.turned hturn
    obtain ⟨n, hn, hends⟩ := ih u.length (hlen ▸ hlt) ℓ' u rfl
    rw [hrun]
    exact ⟨n + 1, by omega, .turn hturn hends⟩

end Leave

/-! ## Every part goes forward -/

/-- No part of the reader goes back or beyond the end: what it leaves is the end of what it was
given. -/
structure Forward (fin : Position) (ts : List Token) : Prop where
  phrase : ∀ (p : Phrase) (e : List Event) (r : List Token), p.Does fin ts e r → r <:+ ts
  clause : ∀ (c : Clause) (e : List Event) (r : List Token), c.Does fin ts e r → r <:+ ts
  simple : ∀ (t : Token) (r : List Token), ts = t :: r → (simple fin t r).rest <:+ ts
  skip : skip ts <:+ ts
  missing : ∀ what : String, (missing fin what ts).rest <:+ ts
  require : ∀ (k : Kind) (what : String), (require fin k what ts).rest <:+ ts
  abandon : ∀ i : Issue, (abandon fin i ts).rest <:+ ts
  recover : recover ts <:+ ts
  leaveBlock : ∀ depth : Nat, leaveBlock depth ts <:+ ts

theorem rest_simple_suffix (fin : Position) (t : Token) (r : List Token) :
    (simple fin t r).rest <:+ t :: r := by
  rw [simple]
  split
  · exact List.suffix_cons t r
  · have hoperation : Phrase.Parses fin (.operation true) (t :: r) _ _ :=
      Phrase.parses_iff.2 ⟨rfl, rfl⟩
    have hterminator : Clause.Parses fin .terminator (operation fin true (t :: r)).rest _ _ :=
      Clause.parses_iff.2 ⟨rfl, rfl⟩
    exact hterminator.suffix.trans hoperation.suffix

theorem forward (fin : Position) (ts : List Token) : Forward fin ts where
  phrase _ _ _ h := (Phrase.parses_iff.2 h).suffix
  clause _ _ _ h := (Clause.parses_iff.2 h).suffix
  simple t r h := h ▸ rest_simple_suffix fin t r
  skip := skip_suffix ts
  missing _ := skip_suffix ts
  require k what := rest_require_suffix fin k what ts
  abandon i := rest_abandon_suffix fin i ts
  recover := recover_suffix ts
  leaveBlock depth := leaveBlock_suffix depth ts

/-- Checking comes to the end of any tokens: the loop over the statements leaves nothing, after no
more turns than there are tokens. On the way no part goes back or beyond the end, a statement takes
a token that is no comment if there is one, and so does each turn of a loop after which the loop
goes on. -/
theorem checkTokens_progress (fin : Position) (ts : List Token) :
    (∃ n ≤ (skip ts).length, ∃ e, Loop.program.Ends fin (skip ts) n e [] ∧
      ∀ env : Surroundings, checkTokens env fin ts = env.analyse {} e) ∧
    (∀ us, Forward fin us ∧ (skip us ≠ [] → (statement fin us).rest.length < (skip us).length)) ∧
    (∀ (ℓ : Loop) (us : List Token), ∃ n ≤ us.length,
      ℓ.Ends fin us n (ℓ.run fin us).1 (ℓ.run fin us).2) ∧
    ∀ (ℓ ℓ' : Loop) (us u : List Token) (e : List Event), ℓ.turn fin us = some (e, ℓ', u) →
      u <:+ us ∧ u.length < us.length := by
  refine ⟨?_, fun us => ⟨forward fin us, length_rest_statement_lt fin⟩, Loop.ends fin, ?_⟩
  · obtain ⟨n, hn, hends⟩ := Loop.program.ends fin (skip ts)
    refine ⟨n, hn, _, hends, fun env => ?_⟩
    rw [checkTokens, Loop.run, program_congr (skip_skip ts)]
  · intro ℓ ℓ' us u e hturn
    have hturned := Loop.turned hturn
    exact ⟨hturned.suffix, hturned.length_lt⟩

end Partitura.ManuScript.Reader
