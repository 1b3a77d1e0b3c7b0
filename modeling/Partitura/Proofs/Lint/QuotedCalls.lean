import Partitura.Proofs.Lint.Calls
import Partitura.Proofs.ManuScript.ArgumentCounts
import Partitura.Proofs.ManuScript.Sheets

/-!
# Calls in quotes

The check of calls looks for names with a parenthesis behind them in the tokens of a plugin file.
But all code of such a file is in quotes, and a text in quotes is a single token: the braces, names
and texts of a file have no parenthesis outside of quotes, so the check never complains about any
call, whatever the members do (`callIssues_quoted`).

It is not the check of a call that fails. Were the same text looked at without its quotes, every
call in it outside of other parentheses would be found (`Call.finds_ofTokens`), with the number of
its arguments, and those that do not fit would be complained about.
-/

namespace Partitura.ManuScript

open Grammar Lexer

namespace Call

/-! ## Calls outside of parentheses -/

/-- The number of open parentheses behind a token. One that closes none is passed over. -/
def depthAfter (depth : Nat) (t : Token) : Nat :=
  if t.kind = .lparen then depth + 1 else if t.kind = .rparen then depth - 1 else depth

/-- The number of open parentheses behind tokens. -/
def openAfter (depth : Nat) (ts : List Token) : Nat := ts.foldl depthAfter depth

theorem openAfter_cons (depth : Nat) (t : Token) (ts : List Token) :
    openAfter depth (t :: ts) = openAfter (depthAfter depth t) ts := rfl

theorem openAfter_mono {d d' : Nat} (h : d ≤ d') (ts : List Token) :
    openAfter d ts ≤ openAfter d' ts := by
  induction ts generalizing d d' with
  | nil => exact h
  | cons t ts ih =>
    refine ih ?_
    unfold depthAfter
    split <;> [omega; (split <;> omega)]

/-- What stands behind some tokens leaves no parenthesis open either. -/
theorem openAfter_zero_of_eq_zero {d : Nat} {ts : List Token} (h : openAfter d ts = 0) :
    openAfter 0 ts = 0 :=
  Nat.le_zero.1 (h ▸ openAfter_mono (Nat.zero_le d) ts)

/-- The counter stops inside of tokens that close all that is open, whatever follows them. -/
theorem countArguments_append {depth : Nat} {us : List Token} (h : openAfter (depth + 1) us = 0)
    (commas : Nat) (filled : Bool) : ∃ n vs, vs.length < us.length ∧ openAfter 0 vs = 0 ∧
      ∀ rest, countArguments depth commas filled (us ++ rest) = (n, vs ++ rest) := by
  induction us generalizing depth commas filled with
  | nil => cases h
  | cons t us ih =>
    have hstep {d commas' : Nat} {filled' : Bool} (hd : openAfter (d + 1) us = 0)
        (ht : ∀ rest, countArguments depth commas filled (t :: us ++ rest) =
          countArguments d commas' filled' (us ++ rest)) :
        ∃ n vs, vs.length < (t :: us).length ∧ openAfter 0 vs = 0 ∧
          ∀ rest, countArguments depth commas filled (t :: us ++ rest) = (n, vs ++ rest) := by
      obtain ⟨n, vs, hlength, hopen, hcount⟩ := ih hd commas' filled'
      exact ⟨n, vs, Nat.lt_succ_of_lt hlength, hopen, fun rest => (ht rest).trans (hcount rest)⟩
    obtain ⟨k, text, pos⟩ := t
    cases k
    case lparen => exact hstep h fun _ => rfl
    case rparen =>
      cases depth with
      | zero => exact ⟨_, us, Nat.lt_succ_self _, h, fun _ => rfl⟩
      | succ d => exact hstep h fun _ => rfl
    case comma => cases depth <;> exact hstep h fun _ => rfl
    all_goals exact hstep h fun _ => rfl

/-- The call of a name is among the calls that are found. -/
def Finds (cs : List Call) (name : Token) (n : Nat) : Prop :=
  ∃ c ∈ cs, c.pos = name.pos ∧ c.name = name.text ∧ c.arguments = n

section
variable {m l : Token} (hm : m.kind = .identifier) (hl : l.kind = .lparen) (r : List Token)
include hm hl

theorem finds_first : Finds (ofTokens (m :: l :: r)) m (countArguments 0 0 false r).1 :=
  ⟨_, List.mem_of_head? (head?_ofTokens hm hl r), rfl, rfl, rfl⟩

/-- Behind a name that may be called itself the search goes on in tokens that are not longer. -/
theorem finds_ofName (object : Option String) (name : Token) {us : List Token}
    (hus : openAfter 0 us = 0) (ih : ∀ vs, vs.length ≤ us.length → openAfter 0 vs = 0 →
      Finds (ofTokens (vs ++ m :: l :: r)) m (countArguments 0 0 false r).1) :
    Finds (ofTokens.ofName object name (us ++ m :: l :: r)) m (countArguments 0 0 false r).1 := by
  cases us with
  | nil =>
    rw [List.nil_append, ofTokens.ofName, if_neg (by rw [hm]; decide)]
    exact finds_first hm hl r
  | cons t us =>
    rw [List.cons_append, ofTokens.ofName]
    split
    · next ht =>
      rw [openAfter_cons, depthAfter, if_pos ht] at hus
      obtain ⟨n, vs, hlength, hopen, hcount⟩ := countArguments_append hus 0 false
      split
      next n' rest hrest =>
      obtain ⟨rfl, rfl⟩ := Prod.mk.inj ((hcount _).symm.trans hrest)
      obtain ⟨c, hc, hfound⟩ := ih vs (Nat.le_succ_of_le hlength.le) hopen
      exact ⟨c, List.mem_cons_of_mem _ hc, hfound⟩
    · exact ih (t :: us) le_rfl hus

/-- A call outside of parentheses is found, whatever stands in front of it. A name in front takes at
most a point and one more name with it, and a call in front the tokens up to its closing
parenthesis, which is in front as well. -/
theorem finds_ofTokens {us : List Token} (hus : openAfter 0 us = 0) :
    Finds (ofTokens (us ++ m :: l :: r)) m (countArguments 0 0 false r).1 := by
  induction hn : us.length using Nat.strong_induction_on generalizing us with | _ n ih
  subst hn
  cases us with
  | nil => exact finds_first hm hl r
  | cons t us =>
    have hrest : openAfter 0 us = 0 := openAfter_zero_of_eq_zero hus
    have hshorter (vs : List Token) (hlength : vs.length ≤ us.length) (hvs : openAfter 0 vs = 0) :
        Finds (ofTokens (vs ++ m :: l :: r)) m (countArguments 0 0 false r).1 :=
      ih _ (Nat.lt_succ_of_le hlength) hvs rfl
    rw [List.cons_append, ofTokens.eq_def]
    dsimp only
    split
    · cases us with
      | nil =>
        dsimp only [List.nil_append]
        rw [if_neg (by rw [hm]; decide)]
        exact finds_ofName hm hl r none t hrest hshorter
      | cons d us =>
        cases us with
        | nil =>
          dsimp only [List.cons_append, List.nil_append]
          split
          · rw [ofTokens.ofName, if_pos hl]
            exact ⟨_, List.mem_cons_self, rfl, rfl, rfl⟩
          · exact finds_ofName hm hl r none t hrest hshorter
        | cons i us =>
          dsimp only [List.cons_append]
          split
          · split
            · have hinner : openAfter 0 us = 0 :=
                openAfter_zero_of_eq_zero (openAfter_zero_of_eq_zero hrest)
              refine finds_ofName hm hl r (some t.text) i hinner fun vs hlength =>
                hshorter vs (hlength.trans ?_)
              simp only [List.length_cons]
              omega
            · exact hshorter _ le_rfl hrest
          · exact finds_ofName hm hl r none t hrest hshorter
    · exact hshorter us le_rfl hrest

end

/-- Without parentheses nothing is called. -/
theorem ofTokens_eq_nil {ts : List Token} : (∀ t ∈ ts, t.kind ≠ .lparen) → ofTokens ts = [] := by
  refine ofTokens.induct
    (fun object name ts => (∀ t ∈ ts, t.kind ≠ .lparen) → ofTokens.ofName object name ts = [])
    (fun ts => (∀ t ∈ ts, t.kind ≠ .lparen) → ofTokens ts = []) ?_ ?_ ?_ ?_ ?_ ?_ ?_ ?_ ?_ ts
  · intro object name _
    rw [ofTokens.ofName]
  · intro object name t r ht n rest _ _ _ h
    exact absurd ht (h t List.mem_cons_self)
  · intro object name t r ht ih h
    rw [ofTokens.ofName, if_neg ht]
    exact ih h
  · intro _
    rw [ofTokens]
  · intro t ht d m s hd hm ih h
    rw [ofTokens, if_pos ht, if_pos hd, if_pos hm]
    exact ih fun u hu => h u (by simp [hu])
  · intro t ht d m s hd hm ih h
    rw [ofTokens, if_pos ht, if_pos hd, if_neg hm]
    exact ih fun u hu => h u (List.mem_cons_of_mem _ hu)
  · intro t ht d m s hd ih h
    rw [ofTokens, if_pos ht, if_neg hd]
    exact ih fun u hu => h u (List.mem_cons_of_mem _ hu)
  · intro t ht s hs ih h
    rw [ofTokens, if_pos ht]
    · exact ih fun u hu => h u (List.mem_cons_of_mem _ hu)
    · exact hs
  · intro t r ht ih h
    rw [ofTokens.eq_def]
    dsimp only
    rw [if_neg ht]
    exact ih fun u hu => h u (List.mem_cons_of_mem _ hu)

end Call

/-- The tokens have a call outside of parentheses: one of `m` with `n` arguments, which are
expressions. -/
def HasCall (ts : List Token) (m : Token) (n : Nat) : Prop :=
  ∃ (us : List Token) (l : Token) (inner : List Token) (close : Token) (vs : List Token)
    (args : List (List Token)),
    ts = us ++ m :: l :: (inner ++ close :: vs) ∧ Call.openAfter 0 us = 0 ∧ m.kind = .identifier ∧
      l.kind = .lparen ∧
    close.kind = .rparen ∧ (∀ a ∈ args, Derives (.expression 0) a) ∧ args.length = n ∧
    (inner.map Token.kind).filter (· ≠ .comment) = Call.shown (separated args)

theorem HasCall.finds {ts : List Token} {m : Token} {n : Nat} (h : HasCall ts m n)
    (rest : List Token) : Call.Finds (Call.ofTokens (ts ++ rest)) m n := by
  obtain ⟨us, l, inner, close, vs, args, rfl, hus, hm, hl, hclose, hargs, rfl, hinner⟩ := h
  have hfinds := Call.finds_ofTokens hm hl (inner ++ close :: (vs ++ rest)) hus
  rw [Call.fst_countArguments_separated hargs hinner hclose] at hfinds
  simpa using hfinds

end Partitura.ManuScript

namespace Partitura.Lint

open ManuScript Text

/-- A call that is found and does not fit is complained about. -/
theorem callIssue_of_finds {language : Language} {cs : List Call} {m : Token} {n : Nat}
    (h : Call.Finds cs m n) {a : Arity} (ha : language.callArity? m.text = some a)
    (hn : ¬ a.admits n) : ∃ d ∈ cs.filterMap (callIssue? language), d.pos = m.pos ∧
      (d.issue = .tooFewArguments m.text a.least n ∨
        d.issue = .tooManyArguments m.text a.most n) := by
  obtain ⟨c, hc, hpos, hname, rfl⟩ := h
  rw [Arity.admits_iff] at hn
  rw [← hname] at ha ⊢
  by_cases hleast : (c.arguments : Int) < a.least
  · refine ⟨⟨c.pos, .tooFewArguments c.name a.least c.arguments⟩,
      List.mem_filterMap.2 ⟨c, hc, ?_⟩, hpos, .inl rfl⟩
    rw [callIssue?, ha]
    exact if_pos hleast
  · refine ⟨⟨c.pos, .tooManyArguments c.name a.most c.arguments⟩,
      List.mem_filterMap.2 ⟨c, hc, ?_⟩, hpos, .inr rfl⟩
    rw [callIssue?, ha]
    exact (if_neg hleast).trans (if_pos (by omega))

/-- A plugin file has no parentheses outside of its quotes. -/
theorem kind_ne_lparen_of_sheet {es : List Entry} (hes : ∀ e ∈ es, e.Valid)
    {indent rest : List Char} (hindent : AllBlank indent) (hrest : AllBlank rest) :
    ∀ t ∈ (lex .plugin ⟨1, 1⟩ (sheet indent es ++ rest)).all, t.kind ≠ .lparen := by
  have hblank : Lexer.lexemes .plugin rest = [] := by
    rw [← List.append_nil rest, Lexer.lexemes_allBlank_append hrest, Lexer.lexemes_nil]
  have hlexemes := map_lexeme_all .plugin ⟨1, 1⟩ (sheet indent es ++ rest)
  rw [lexemes_sheet hindent hes, hblank] at hlexemes
  intro t ht
  have hmem := List.mem_map_of_mem (f := Token.lexeme) ht
  rw [hlexemes] at hmem
  simp only [entryLexemes, List.mem_append, List.mem_cons, List.mem_flatMap, List.not_mem_nil,
    or_false] at hmem
  change t.lexeme.1 ≠ .lparen
  rcases hmem with (h | ⟨e, -, h | h⟩ | h) | h <;> simp [h]

theorem callIssues_sheet (language : Language) {es : List Entry} (hes : ∀ e ∈ es, e.Valid)
    {indent rest : List Char} (hindent : AllBlank indent) (hrest : AllBlank rest) :
    callIssues language (sheet indent es ++ rest) = [] := by
  rw [callIssues, Call.ofTokens_eq_nil (kind_ne_lparen_of_sheet hes hindent hrest),
    List.filterMap_nil]

/-- **Code in quotes is not seen.** Whatever members a plugin file has and whatever the language,
there is no complaint about a call in it. But for each of its members the check of the text alone
complains about every call outside of parentheses that does not fit, at its name. -/
theorem callIssues_quoted (language : Language) {es : List Entry} (hes : ∀ e ∈ es, e.Valid)
    {indent rest : List Char} (hindent : AllBlank indent) (hrest : AllBlank rest) :
    callIssues language (sheet indent es ++ rest) = [] ∧
      ∀ e ∈ es, ∀ m n, HasCall (lex .plugin ⟨1, 1⟩ e.content).tokens m n →
        ∀ a, language.callArity? m.text = some a → ¬ a.admits n →
          ∃ d ∈ callIssues language e.content, d.pos = m.pos ∧
            (d.issue = .tooFewArguments m.text a.least n ∨
              d.issue = .tooManyArguments m.text a.most n) :=
  ⟨callIssues_sheet language hes hindent hrest,
    fun _ _ _ _ hcall _ ha hn => callIssue_of_finds (hcall.finds _) ha hn⟩

/-- A member whose code calls a method that takes one argument with none. -/
def mute : Entry := ⟨"Run".toList, "() \x7b Sibelius.MessageBox(); \x7d".toList⟩

theorem mute_valid : ∀ e ∈ [mute], e.Valid :=
  List.forall_mem_singleton.2 ⟨by decide, escaped_iff.2 (by decide)⟩

theorem hasCall_mute :
    HasCall (lex .plugin ⟨1, 1⟩ mute.content).tokens ⟨.identifier, "MessageBox", ⟨1, 15⟩⟩ 0 := by
  refine ⟨[⟨.lparen, "(", ⟨1, 1⟩⟩, ⟨.rparen, ")", ⟨1, 2⟩⟩, ⟨.lbrace, "\x7b", ⟨1, 4⟩⟩,
    ⟨.identifier, "Sibelius", ⟨1, 6⟩⟩, ⟨.dot, ".", ⟨1, 14⟩⟩], ⟨.lparen, "(", ⟨1, 25⟩⟩, [],
    ⟨.rparen, ")", ⟨1, 26⟩⟩, [⟨.semicolon, ";", ⟨1, 27⟩⟩, ⟨.rbrace, "\x7d", ⟨1, 29⟩⟩], [], ?_, rfl,
    rfl, rfl, rfl, List.forall_mem_nil _, rfl, rfl⟩
  decide +kernel

theorem callArity?_messageBox : Language.reference.callArity? "MessageBox" = some ⟨1, 1⟩ := by
  decide +kernel

/-- There is no complaint in the file of this member, and there is one in its text. -/
theorem callIssues_quoted_mute :
    callIssues Language.reference (sheet ['\t'] [mute] ++ ['\n']) = [] ∧
    ∃ d ∈ callIssues Language.reference mute.content, d.pos = ⟨1, 15⟩ ∧
      (d.issue = .tooFewArguments "MessageBox" 1 0 ∨
        d.issue = .tooManyArguments "MessageBox" 1 0) := by
  have hindent : AllBlank ['\t'] := by decide
  have hrest : AllBlank ['\n'] := by decide
  obtain ⟨hfile, hcode⟩ := callIssues_quoted Language.reference mute_valid hindent hrest
  exact ⟨hfile,
    hcode mute List.mem_cons_self _ 0 hasCall_mute ⟨1, 1⟩ callArity?_messageBox (by decide)⟩

/-- The code of a file has a call without the argument that it needs, and there is no complaint. -/
theorem callIssues_of_mute_file :
    (∃ a, Language.reference.callArity? "MessageBox" = some a ∧ ¬ a.admits 0) ∧
    callIssues Language.reference "\x7b\nRun \"() \x7b Sibelius.MessageBox(); \x7d\"\n\x7d".toList =
      [] := by
  have hsheet : "\x7b\nRun \"() \x7b Sibelius.MessageBox(); \x7d\"\n\x7d".toList =
      sheet [] [mute] ++ [] := by decide
  rw [hsheet]
  exact ⟨⟨⟨1, 1⟩, callArity?_messageBox, by decide⟩,
    callIssues_sheet _ mute_valid (by decide) (by decide)⟩

end Partitura.Lint
