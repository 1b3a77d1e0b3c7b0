import Partitura.ManuScript.Call
import Partitura.Proofs.ManuScript.Dialects
import Partitura.Proofs.ManuScript.Wording

/-!
# Two counts of arguments

The arguments of a call are counted in two ways. Where calls are found by their shape, the commas
are counted, apart from those inside of inner parentheses (`Call.countArguments`); the reader of
method bodies reads an expression after each comma (`Reader.arguments`). For a call whose arguments
are expressions of the grammar both counts are their number, however deep the expressions are and
wherever comments stand between the parentheses, and the reader stops right behind the closing one
(`argumentCounts_agree`).

The counter passes over an expression at any depth, with anything behind it, and so over the
arguments of a call inside of it (`Passed`): only the commas between the arguments are left. The two
dialects of tokens differ by colons, which the counter never sees.
-/

namespace Partitura.ManuScript

open Grammar Lexer

variable {k : Kind} {us : List Token} {w : List Char}

/-! ## Expressions by their kinds -/

namespace Fits

theorem group {ks : List Kind} (h : Fits (.expression 0) ks) :
    Fits .chain (.lparen :: (ks ++ [.rparen])) := h.enclosed .group

theorem property {ks : List Kind} (h : Fits .chain ks) :
    Fits .chain (ks ++ [.colon, .identifier]) := by
  intro ts hts
  simp only [List.map_eq_append_iff, List.map_eq_cons_iff, List.map_eq_nil_iff] at hts
  obtain ⟨a, _, rfl, ha, c, _, rfl, hc, i, _, rfl, hi, rfl⟩ := hts
  exact .property (h a ha) hc hi

theorem sign {ks : List Kind} (hk : k ∈ signs) (h : Fits (.expression 5) ks) :
    Fits (.expression 5) (k :: ks) := by
  intro ts hts
  obtain ⟨t, a, rfl, rfl, ha⟩ := List.map_eq_cons_iff.1 hts
  exact .sign hk (h a ha)

end Fits

/-- The phrases that expressions are made of. -/
def Grammar.Symbol.inExpression : Symbol → Bool
  | .expression _ | .chain | .arguments | .moreArguments => true
  | _ => false

/-- An expression is known by the kinds of its tokens. -/
theorem Grammar.Derives.fits {σ : Symbol} {ts : List Token} (h : Derives σ ts)
    (hσ : σ.inExpression = true) : Fits σ (ts.map Token.kind) := by
  induction h with
  | atom ht => exact .atom ht
  | group hl _ hr ih => simpa [hl, hr] using (ih rfl).group
  | member _ hd hi ih => simpa [hd, hi] using (ih rfl).member
  | call _ hl _ hr iha ihb => simpa [hl, hr] using (iha rfl).call (ihb rfl)
  | index _ hl _ hr iha ihb => simpa [hl, hr] using (iha rfl).index (ihb rfl)
  | property _ hc hi ih => simpa [hc, hi] using (ih rfl).property
  | link _ ih => exact (ih rfl).link le_rfl
  | sign ht _ ih => exact .sign ht (ih rfl)
  | operand hn _ ih => exact fun us hus => .operand hn (ih rfl us hus)
  | operation _ hop _ iha ihb => simpa using (iha rfl).operation hop (ihb rfl)
  | noArgument => exact .noArgument
  | firstArgument _ _ iha ihb => simpa using (iha rfl).firstArgument (ihb rfl)
  | lastArgument => exact .lastArgument
  | nextArgument hc _ _ iha ihb => simpa [hc] using (iha rfl).nextArgument (ihb rfl)
  | _ => cases hσ

/-- The kinds of tokens that a dialect has. -/
def Dialect.has (d : Dialect) (k : Kind) : Bool := d = .body || k ≠ .colon

/-- The kinds of the tokens of arguments, with commas between them. -/
def separated : List (List Token) → List Kind
  | [] => []
  | a :: as => a.map Token.kind ++ as.flatMap fun b => .comma :: b.map Token.kind

namespace Call

/-! ## Counting commas -/

/-- The count of the arguments when tokens of these kinds follow. -/
def countKinds (depth commas : Nat) (filled : Bool) (ks : List Kind) : Nat :=
  (countArguments depth commas filled (ks.map fun k => ⟨k, "", ⟨1, 1⟩⟩)).1

/-- Only the kinds of the tokens count, and comments do not. -/
theorem fst_countArguments (depth commas : Nat) (filled : Bool) (ts : List Token) :
    (countArguments depth commas filled ts).1 =
      countKinds depth commas filled ((ts.map Token.kind).filter (· ≠ .comment)) := by
  induction ts generalizing depth commas filled with
  | nil => rfl
  | cons t r ih =>
    obtain ⟨k, text, pos⟩ := t
    cases k
    case comment => exact ih depth commas filled
    case lparen => exact ih (depth + 1) commas true
    case rparen =>
      cases depth with
      | zero => rfl
      | succ d => exact ih d commas filled
    case comma =>
      cases depth with
      | zero => exact ih 0 (commas + 1) filled
      | succ d => exact ih (d + 1) commas true
    all_goals exact ih depth commas true

section
variable {depth commas : Nat} {filled : Bool} {ks : List Kind}

theorem countKinds_lparen :
    countKinds depth commas filled (.lparen :: ks) = countKinds (depth + 1) commas true ks := rfl

theorem countKinds_rparen :
    countKinds (depth + 1) commas filled (.rparen :: ks) = countKinds depth commas filled ks := rfl

theorem countKinds_close : countKinds 0 commas filled (.rparen :: ks) =
    if filled then commas + 1 else commas := rfl

theorem countKinds_comma :
    countKinds 0 commas filled (.comma :: ks) = countKinds 0 (commas + 1) filled ks := rfl

theorem countKinds_inner_comma :
    countKinds (depth + 1) commas filled (.comma :: ks) = countKinds (depth + 1) commas true ks :=
  rfl

theorem countKinds_plain (h : k ∉ [.lparen, .rparen, .comma, .comment]) :
    countKinds depth commas filled (k :: ks) = countKinds depth commas true ks := by
  cases k
  case lparen | rparen | comma | comment => simp at h
  all_goals rfl

end

/-- The kinds that are tokens in a plugin file. -/
def shown (ks : List Kind) : List Kind := ks.filter Dialect.plugin.has

theorem shown_append (ks ls : List Kind) : shown (ks ++ ls) = shown ks ++ shown ls :=
  List.filter_append ..

theorem shown_cons (h : k ≠ .colon) (ks : List Kind) : shown (k :: ks) = k :: shown ks :=
  List.filter_cons_of_pos (by simpa [Dialect.has] using h)

/-- Signs, operators and operands are plain. -/
theorem countKinds_of_mem {n : Nat} (h : k ∈ operators n ∨ k ∈ signs ++ atoms)
    (depth commas : Nat) (filled : Bool) (ks ls : List Kind) :
    countKinds depth commas filled (shown (k :: ks) ++ ls) =
      countKinds depth commas true (shown ks ++ ls) := by
  have hall : ∀ k ∈ (List.range 5).flatMap operators ++ (signs ++ atoms),
      k ∉ [.lparen, .rparen, .comma, .comment] ∧ k ≠ .colon := by
    decide
  have hmem : k ∈ (List.range 5).flatMap operators ++ (signs ++ atoms) := by
    rw [List.mem_append, List.mem_flatMap]
    exact h.imp_left fun h => ⟨n, List.mem_range.2 (lt_of_mem_operators h), h⟩
  obtain ⟨hplain, hcolon⟩ := hall k hmem
  rw [shown_cons hcolon, List.cons_append, countKinds_plain hplain]

/-- What the counter does with a phrase, whatever follows it. An expression fills the call and is
passed over, and so are the arguments of a call inside of it. -/
def Passed : Symbol → List Kind → Prop
  | .expression _, ks | .chain, ks => ∀ depth commas filled rest,
      countKinds depth commas filled (shown ks ++ rest) = countKinds depth commas true rest
  | .arguments, ks | .moreArguments, ks => ∀ depth commas rest,
      countKinds (depth + 1) commas true (shown ks ++ rest) =
        countKinds (depth + 1) commas true rest
  | _, _ => True

theorem passed_of_derives {σ : Symbol} {ts : List Token} (h : Derives σ ts) :
    Passed σ (ts.map Token.kind) := by
  induction h with
  | atom ht =>
    intro depth commas filled rest
    exact countKinds_of_mem (n := 0) (.inr (List.mem_append_right _ ht)) depth commas filled [] rest
  | group hl _ hr ih =>
    intro depth commas filled rest
    rw [List.map_cons, List.map_append, hl, shown_cons (by decide), shown_append,
      List.map_singleton, hr, List.cons_append, List.append_assoc, countKinds_lparen, ih _ _ _ _]
    exact countKinds_rparen
  | member _ hd hi ih =>
    intro depth commas filled rest
    rw [List.map_append, shown_append, List.append_assoc, ih _ _ _ _, List.map_cons, hd,
      List.map_singleton, hi]
    rfl
  | call _ hl _ hr iha ihb =>
    intro depth commas filled rest
    rw [List.map_append, shown_append, List.append_assoc, iha _ _ _ _, List.map_cons, hl,
      shown_cons (by decide), List.cons_append, countKinds_lparen, List.map_append, shown_append,
      List.append_assoc, ihb _ _ _, List.map_singleton, hr]
    exact countKinds_rparen
  | index _ hl _ hr iha ihb =>
    intro depth commas filled rest
    rw [List.map_append, shown_append, List.append_assoc, iha _ _ _ _, List.map_cons, hl,
      shown_cons (by decide), List.cons_append, countKinds_plain (by decide), List.map_append,
      shown_append, List.append_assoc, ihb _ _ _ _, List.map_singleton, hr]
    rfl
  | property _ hc hi ih =>
    intro depth commas filled rest
    rw [List.map_append, shown_append, List.append_assoc, ih _ _ _ _, List.map_cons, hc,
      List.map_singleton, hi]
    rfl
  | link _ ih => exact ih
  | sign ht _ ih =>
    intro depth commas filled rest
    rw [List.map_cons, countKinds_of_mem (n := 0) (.inr (List.mem_append_left _ ht)), ih _ _ _ _]
  | operand _ _ ih => exact ih
  | operation _ hop _ iha ihb =>
    intro depth commas filled rest
    rw [List.map_append, shown_append, List.append_assoc, iha _ _ _ _, List.map_cons,
      countKinds_of_mem (.inl hop), ihb _ _ _ _]
  | noArgument => exact fun _ _ _ => rfl
  | firstArgument _ _ iha ihb =>
    intro depth commas rest
    rw [List.map_append, shown_append, List.append_assoc, iha _ _ _ _, ihb _ _ _]
  | lastArgument => exact fun _ _ _ => rfl
  | nextArgument hc _ _ iha ihb =>
    intro depth commas rest
    rw [List.map_cons, hc, shown_cons (by decide), List.cons_append, countKinds_inner_comma,
      List.map_append, shown_append, List.append_assoc, iha _ _ _ _, ihb _ _ _]
  | _ => trivial

/-- The counter counts arguments that are expressions. -/
theorem countKinds_separated {args : List (List Token)} (h : ∀ a ∈ args, Derives (.expression 0) a)
    (rest : List Kind) :
    countKinds 0 0 false (shown (separated args) ++ .rparen :: rest) = args.length := by
  cases args with
  | nil => exact countKinds_close
  | cons a as =>
    have hmore (commas : Nat) :
        countKinds 0 commas true
          (shown (as.flatMap fun b => .comma :: b.map Token.kind) ++ .rparen :: rest) =
          commas + as.length + 1 := by
      have has : ∀ b ∈ as, Derives (.expression 0) b := fun b hb => h b (List.mem_cons_of_mem a hb)
      clear h
      induction as generalizing commas with
      | nil => exact countKinds_close
      | cons b as ih =>
        rw [List.flatMap_cons, List.cons_append, shown_cons (by decide), List.cons_append,
          countKinds_comma, shown_append, List.append_assoc,
          passed_of_derives (has b List.mem_cons_self) _ _ _ _,
          ih _ fun b hb => has b (List.mem_cons_of_mem _ hb), List.length_cons]
        omega
    rw [separated, shown_append, List.append_assoc,
      passed_of_derives (h a List.mem_cons_self) _ _ _ _, hmore, List.length_cons, Nat.zero_add]

/-- The count of arguments that are expressions, with comments anywhere between them. -/
theorem fst_countArguments_separated {args : List (List Token)}
    (h : ∀ a ∈ args, Derives (.expression 0) a)
    (hus : (us.map Token.kind).filter (· ≠ .comment) = shown (separated args)) {close : Token}
    (hclose : close.kind = .rparen) (rest : List Token) :
    (countArguments 0 0 false (us ++ close :: rest)).1 = args.length := by
  rw [fst_countArguments, List.map_append, List.filter_append, hus, List.map_cons, hclose,
    List.filter_cons_of_pos (by decide), countKinds_separated h]

end Call

/-! ## Reading arguments -/

namespace Reader

section
variable (fin : Position) (s : Bool) {close : Token} (rest : List Token)

theorem rest_closeCall (hclose : close.kind = .rparen) :
    (closeCall fin (close :: rest)).rest = rest :=
  (yields_require hclose (by decide) fin _ rest).rest_eq

/-- Tokens of the kinds of an expression are read as one, and start with no comment and no closing
parenthesis. -/
theorem parses_argument {a rest : List Token} (ha : Derives (.expression 0) a)
    (hus : us.map Token.kind = a.map Token.kind) (hrest : kindAt rest ∈ closers) :
    kindAt (skip (us ++ rest)) ≠ .rparen ∧
      ∃ e, (Phrase.expression s).Parses fin (skip (us ++ rest)) e rest := by
  obtain ⟨b, rfl⟩ := (ha.fits rfl us hus).exists_tree
  obtain ⟨hskip, hparen⟩ := argument_starts b rest
  obtain ⟨e, hexpression, -⟩ := (b.conveyed fin).expression hrest s
  rw [hskip]
  exact ⟨hparen, e, hexpression⟩

/-- The arguments after the first `n` are read one by one, each behind its comma. -/
theorem parses_more_of_separated (hclose : close.kind = .rparen) {args : List (List Token)}
    (hargs : ∀ a ∈ args, Derives (.expression 0) a)
    (hus : us.map Token.kind = args.flatMap fun a => .comma :: a.map Token.kind) (n : Nat) :
    kindAt (us ++ close :: rest) ∈ closers ∧
      ∃ e, (Phrase.moreArguments s n (n + args.length)).Parses fin
        (us ++ close :: rest) e rest := by
  induction args generalizing us n with
  | nil =>
    obtain rfl := List.map_eq_nil_iff.1 hus
    have hlast : (Phrase.moreArguments s n n).Parses fin (close :: rest) _ _ :=
      .lastArgument (by rw [kindAt_cons, hclose]; decide)
    rw [rest_closeCall fin rest hclose] at hlast
    exact ⟨closes hclose (by decide) _, _, hlast⟩
  | cons a args ih =>
    rw [List.flatMap_cons, List.cons_append] at hus
    obtain ⟨c, vs, rfl, hc, hvs⟩ := List.map_eq_cons_iff.1 hus
    obtain ⟨as, ws, rfl, has, hws⟩ := List.map_eq_append_iff.1 hvs
    obtain ⟨hclosers, e', hmore⟩ := ih (fun b hb => hargs b (List.mem_cons_of_mem _ hb)) hws (n + 1)
    obtain ⟨hparen, e, hfirst⟩ := parses_argument fin s (hargs a List.mem_cons_self) has hclosers
    rw [List.cons_append, List.append_assoc, List.length_cons, Nat.add_comm args.length,
      ← Nat.add_assoc]
    exact ⟨closes hc (by decide) _, e ++ e', .nextArgument hc hparen hfirst hmore⟩

/-- Arguments that are expressions are counted, and read up to the closing parenthesis. -/
theorem arguments_of_separated (hclose : close.kind = .rparen) {args : List (List Token)}
    (hargs : ∀ a ∈ args, Derives (.expression 0) a) (hus : us.map Token.kind = separated args) :
    (arguments fin s (us ++ close :: rest)).count = args.length ∧
      (arguments fin s (us ++ close :: rest)).rest = rest := by
  have hparses : ∃ e, (Phrase.arguments s args.length).Parses fin (us ++ close :: rest) e rest := by
    cases args with
    | nil =>
      obtain rfl := List.map_eq_nil_iff.1 hus
      have hskip : skip (close :: rest) = close :: rest := skip_cons (by rw [hclose]; decide) rest
      have hnone : (Phrase.arguments s 0).Parses fin (close :: rest) _ _ :=
        .noArgument (by rw [hskip, kindAt_cons, hclose])
      rw [hskip, rest_closeCall fin rest hclose] at hnone
      exact ⟨_, hnone⟩
    | cons a args =>
      obtain ⟨as, ws, rfl, has, hws⟩ := List.map_eq_append_iff.1 hus
      obtain ⟨hclosers, e', hmore⟩ :=
        parses_more_of_separated fin s rest hclose
          (fun b hb => hargs b (List.mem_cons_of_mem _ hb)) hws 1
      obtain ⟨hparen, e, hfirst⟩ := parses_argument fin s (hargs a List.mem_cons_self) has hclosers
      rw [List.append_assoc, List.length_cons, Nat.add_comm]
      exact ⟨e ++ e', .firstArgument hparen hfirst hmore⟩
  obtain ⟨e, hparses⟩ := hparses
  obtain ⟨hyields, hcount⟩ := Phrase.parses_iff.1 hparses
  exact ⟨hcount, hyields.rest_eq⟩

end

end Reader

/-! ## Calls as they are written -/

namespace Lexer

/-- A token is read back from its spelling in both dialects, if it is no colon. -/
theorem front_of_spelled_ne_colon (d : Dialect) {c : Char} {r : List Char} (h : Spelled k (c :: r))
    (hk : k ≠ .colon) {rest : List Char} (hrest : Ends k rest) :
    front d c (r ++ rest) = .token k c r := by
  have hbody := front_of_spelled h hrest
  cases d with
  | body => exact hbody
  | plugin =>
    rw [front_plugin fun v hv => ?_, hbody, inPlugin_token hk]
    exact h.ne_invalid (Piece.token.inj (hbody.symm.trans hv)).1

theorem lexemes_plugin_colon (rest : List Char) :
    lexemes .plugin (':' :: rest) = lexemes .plugin rest := by
  have hfront : front .plugin ':' ([] ++ rest) = .stray ':' := by cases rest <;> rfl
  rw [lexemes, ← List.singleton_append, pieces_append (p := .stray ':') rfl hfront]
  rfl

/-- A text that starts with a spelling has its token first, if the dialect has such tokens. -/
theorem lexemes_spelled_append (d : Dialect) (h : Spelled k w) {rest : List Char}
    (hrest : Ends k rest) :
    lexemes d (w ++ rest) = [(k, w)].filter (d.has ·.1) ++ lexemes d rest := by
  by_cases hk : k = .colon
  · subst hk
    cases d with
    | body => exact lexemes_spelled h hrest
    | plugin =>
      obtain rfl := h.eq_of_mark? rfl
      exact lexemes_plugin_colon rest
  · cases w with
    | nil => cases h
    | cons c r =>
      rw [lexemes_append_of_front (front_of_spelled_ne_colon d h hk hrest),
        List.filter_cons_of_pos (by simp [Dialect.has, hk])]
      rfl

end Lexer

/-- A token or a comment as it is written, with white space behind it. -/
structure Written where
  kind : Kind
  word : List Char
  gap : List Char
deriving DecidableEq, Repr

namespace Written

def text (w : Written) : List Char := w.word ++ w.gap

def lexeme (w : Written) : Kind × List Char := (w.kind, w.word)

/-- It is spelled as its kind demands, and ends with the white space, whatever follows. So the white
space after a comment starts with a line feed. -/
structure Valid (w : Written) : Prop where
  spelled : Spelled w.kind w.word
  gap : ∀ c ∈ w.gap, isGap c = true
  ends : ∀ rest, Ends w.kind (w.gap ++ rest)

theorem lexemes_flatMap (d : Dialect) {ws : List Written} (h : ∀ w ∈ ws, w.Valid)
    (rest : List Char) :
    lexemes d (ws.flatMap text ++ rest) = (ws.map lexeme).filter (d.has ·.1) ++ lexemes d rest := by
  induction ws with
  | nil => rfl
  | cons w ws ih =>
    have hw := h w List.mem_cons_self
    rw [List.flatMap_cons, text, List.append_assoc, List.append_assoc,
      lexemes_spelled_append d hw.spelled (hw.ends _), lexemes_gaps d hw.gap,
      ih fun v hv => h v (List.mem_cons_of_mem _ hv), ← List.append_assoc, ← List.filter_append]
    rfl

/-- A token with a space behind it. -/
def spaced (k : Kind) (w : List Char) : Written := ⟨k, w, [' ']⟩

/-- A comment on the rest of its line. -/
def remark (w : List Char) : Written := ⟨.comment, '/' :: '/' :: w, ['\n']⟩

theorem valid_spaced (h : Spelled k w) (hk : k ≠ .comment) : (spaced k w).Valid :=
  ⟨h, by simp [spaced, isGap], fun _ => ends_cons.2 (mayFollow_space hk)⟩

theorem valid_remark (h : '\n' ∉ w) : (remark w).Valid :=
  ⟨.comment h, by simp [remark, isGap], fun _ => ends_cons.2 (mayFollow_newline _)⟩

end Written

/-! ## Both counts -/

/-- A name with a parenthesis behind it is the first call that is found. -/
theorem Call.head?_ofTokens {t l : Token} (ht : t.kind = .identifier) (hl : l.kind = .lparen)
    (r : List Token) :
    (ofTokens (t :: l :: r)).head? =
      some ⟨t.pos, none, t.text, (countArguments 0 0 false r).1⟩ := by
  have hname : ofTokens (t :: l :: r) = ofTokens.ofName none t (l :: r) := by
    rw [ofTokens.eq_def]
    dsimp only
    rw [if_pos ht]
    cases r with
    | nil => rfl
    | cons m r => exact if_neg (by rw [hl]; decide)
  rw [hname, ofTokens.ofName, if_pos hl]
  rfl

/-- A token at the front of a text stands where the text starts. -/
theorem tokens_lex_of_front {d : Dialect} {c : Char} {r v : List Char}
    (h : front d c r = .token k c v) (p : Position) :
    ∃ ts, (lex d p (c :: r)).tokens = ⟨k, String.ofList (c :: v), p⟩ :: ts := by
  rw [lex, pieces_cons, h]
  exact ⟨_, rfl⟩

/-- A call as it is written up to its closing parenthesis: a name, a parenthesis, and tokens and
comments. Without the comments they are of the kinds of the arguments, which are expressions, with
commas between them. -/
structure IsCall (name paren : Written) (items : List Written)
    (args : List (List Token)) : Prop where
  valid : ∀ w ∈ name :: paren :: items, w.Valid
  identifier : name.kind = .identifier
  lparen : paren.kind = .lparen
  derives : ∀ a ∈ args, Derives (.expression 0) a
  kinds : (items.map Written.kind).filter (· ≠ .comment) = separated args

/-- The text of a call with something behind it. -/
def callText (name paren : Written) (items : List Written) (rest : List Char) : List Char :=
  (name :: paren :: items).flatMap Written.text ++ ')' :: rest

theorem map_kind_of_map_lexeme (q : Kind → Bool) {items : List Written}
    (h : us.map Token.lexeme = (items.map Written.lexeme).filter (q ·.1)) :
    us.map Token.kind = (items.map Written.kind).filter q := by
  rw [← map_fst_map_lexeme, h, ← Function.comp_def q, ← List.filter_map, List.map_map]
  rfl

namespace IsCall

variable {name paren : Written} {items : List Written} {args : List (List Token)}

theorem lexemes_callText (h : IsCall name paren items args) (d : Dialect) (rest : List Char) :
    lexemes d (callText name paren items rest) =
      name.lexeme :: paren.lexeme ::
        ((items.map Written.lexeme).filter (d.has ·.1) ++ (.rparen, [')']) :: lexemes d rest) := by
  have hclose : lexemes d (')' :: rest) = (.rparen, [')']) :: lexemes d rest := by
    rw [← List.singleton_append, lexemes_spelled_append d (.single rfl) (fun x _ => rfl)]
    cases d <;> rfl
  rw [callText, Written.lexemes_flatMap d h.valid, hclose, List.map_cons, List.map_cons,
    List.filter_cons_of_pos, List.filter_cons_of_pos]
  · rfl
  · simp [Dialect.has, Written.lexeme, h.lparen]
  · simp [Dialect.has, Written.lexeme, h.identifier]

/-- The tokens of the text of a call: the name at the start of the text, the parentheses, and the
items between them. -/
theorem exists_tokens (h : IsCall name paren items args) (d : Dialect) (p : Position)
    (rest : List Char) : ∃ l us close after, (lex d p (callText name paren items rest)).tokens =
        ⟨.identifier, String.ofList name.word, p⟩ :: l :: (us ++ close :: after) ∧
          l.kind = .lparen ∧
      us.map Token.lexeme = (items.map Written.lexeme).filter (d.has ·.1) ∧ close.kind = .rparen ∧
      after.map Token.lexeme = lexemes d rest := by
  have hlexemes := map_lexeme_tokens d p (callText name paren items rest)
  rw [h.lexemes_callText d rest] at hlexemes
  obtain ⟨t, r, htokens, -, hr⟩ := List.map_eq_cons_iff.1 hlexemes
  obtain ⟨l, r, rfl, hl, hr⟩ := List.map_eq_cons_iff.1 hr
  obtain ⟨us, r, rfl, hus, hr⟩ := List.map_eq_append_iff.1 hr
  obtain ⟨close, after, rfl, hclose, hafter⟩ := List.map_eq_cons_iff.1 hr
  have hfirst : t = ⟨.identifier, String.ofList name.word, p⟩ := by
    obtain ⟨spelled, -, ends⟩ := h.valid name List.mem_cons_self
    obtain ⟨c, v, hword⟩ := List.exists_cons_of_ne_nil spelled.ne_nil
    rw [hword, h.identifier] at spelled
    rw [h.identifier] at ends
    have hfront :=
      front_of_spelled_ne_colon d spelled (by decide)
        (ends ((paren :: items).flatMap Written.text ++ ')' :: rest))
    obtain ⟨ts, hts⟩ := tokens_lex_of_front hfront p
    rw [callText, List.flatMap_cons, Written.text, hword, List.append_assoc, List.append_assoc,
      List.cons_append, hts] at htokens
    rw [hword]
    exact (List.cons.inj htokens).1.symm
  subst hfirst
  exact ⟨l, us, close, after, htokens, (congrArg Prod.fst hl).trans h.lparen, hus,
    congrArg Prod.fst hclose, hafter⟩

/-- The call at the front of a text is found first, with the number of its arguments. -/
theorem head?_ofPlugin (h : IsCall name paren items args) (rest : List Char) :
    (Call.ofPlugin (String.ofList (callText name paren items rest))).head? =
      some ⟨⟨1, 1⟩, none, String.ofList name.word, args.length⟩ := by
  obtain ⟨l, us, close, after, htokens, hl, hus, hclose, -⟩ := h.exists_tokens .plugin ⟨1, 1⟩ rest
  have hkinds : (us.map Token.kind).filter (· ≠ .comment) = Call.shown (separated args) := by
    rw [map_kind_of_map_lexeme Dialect.plugin.has hus, ← h.kinds, Call.shown, List.filter_comm]
  rw [Call.ofPlugin, lexPlugin, String.toList_ofList, Lexed.all, htokens, List.cons_append,
    List.cons_append, Call.head?_ofTokens rfl hl, List.append_assoc, List.cons_append,
    Call.fst_countArguments_separated h.derives hkinds hclose]

/-- The reader counts the arguments of a call as well. -/
theorem count_arguments (h : IsCall name paren items args) (p : Position) (rest : List Char) :
    ∃ l us close after,
      (lexBody p (String.ofList (callText name paren items rest))).tokens.filter
        (·.kind ≠ .comment) =
        ⟨.identifier, String.ofList name.word, p⟩ :: l :: (us ++ close :: after) ∧
          l.kind = .lparen ∧
      us.map Token.lexeme = (items.map Written.lexeme).filter (·.1 ≠ .comment) ∧
        close.kind = .rparen ∧
      after.map Token.lexeme = (lexemes .body rest).filter (·.1 ≠ .comment) ∧
      ∀ fin s, (Reader.arguments fin s (us ++ close :: after)).count = args.length ∧
        (Reader.arguments fin s (us ++ close :: after)).rest = after := by
  obtain ⟨l, us, close, after, htokens, hl, hus, hclose, hafter⟩ := h.exists_tokens .body p rest
  have hitems :
      (us.filter (·.kind ≠ .comment)).map Token.lexeme =
        (items.map Written.lexeme).filter (·.1 ≠ .comment) := by
    have hbody :
        (items.map Written.lexeme).filter (Dialect.body.has ·.1) = items.map Written.lexeme :=
      List.filter_eq_self.2 fun _ _ => rfl
    rw [map_lexeme_filter (· ≠ .comment), hus, hbody]
  have hkinds : (us.filter (·.kind ≠ .comment)).map Token.kind = separated args := by
    rw [map_kind_of_map_lexeme (· ≠ .comment) hitems, h.kinds]
  refine ⟨l, us.filter (·.kind ≠ .comment), close, after.filter (·.kind ≠ .comment), ?_, hl, hitems,
    hclose, ?_, fun fin s =>
    Reader.arguments_of_separated fin s _ hclose h.derives hkinds⟩
  · rw [lexBody, String.toList_ofList, htokens]
    simp [hl, hclose]
  · rw [map_lexeme_filter (· ≠ .comment), hafter]

end IsCall

/-- **The two counts agree.** A call is written with any white space, any comments between its
parentheses and anything behind it. The first call that is found by its shape in this text is that
one, at the start, with the number of its arguments. Without comments the tokens of the text are the
name, a parenthesis, those of the arguments, a closing parenthesis and those of what follows; the
reader of arguments counts the same number from there and stops right behind the closing
parenthesis. -/
theorem argumentCounts_agree {name paren : Written} {items : List Written}
    {args : List (List Token)} (h : IsCall name paren items args) (rest : List Char)
    (p : Position) : (Call.ofPlugin (String.ofList (callText name paren items rest))).head? =
        some ⟨⟨1, 1⟩, none, String.ofList name.word, args.length⟩ ∧
      ∃ l us close after,
        (lexBody p (String.ofList (callText name paren items rest))).tokens.filter
          (·.kind ≠ .comment) =
          ⟨.identifier, String.ofList name.word, p⟩ :: l :: (us ++ close :: after) ∧
            l.kind = .lparen ∧
        us.map Token.lexeme = (items.map Written.lexeme).filter (·.1 ≠ .comment) ∧
          close.kind = .rparen ∧
        after.map Token.lexeme = (lexemes .body rest).filter (·.1 ≠ .comment) ∧
        ∀ fin s, (Reader.arguments fin s (us ++ close :: after)).count = args.length ∧
          (Reader.arguments fin s (us ++ close :: after)).rest = after :=
  ⟨h.head?_ofPlugin rest, h.count_arguments p rest⟩

/-- The items of a call with two arguments, a call among them, and a comment with a comma and a
parenthesis in it. -/
def sampleItems : List Written :=
  [.remark " one, (two".toList, .spaced .identifier ['x'], .spaced .comma [','],
    .spaced .identifier ['g'], .spaced .lparen ['('], .spaced .number ['1'], .spaced .comma [','],
    .spaced .number ['2'], .spaced .rparen [')']]

/-- The arguments of that call. -/
def sampleArguments : List (List Token) :=
  [[⟨.identifier, "x", ⟨1, 1⟩⟩],
    [⟨.identifier, "g", ⟨1, 1⟩⟩, ⟨.lparen, "(", ⟨1, 1⟩⟩, ⟨.number, "1", ⟨1, 1⟩⟩,
      ⟨.comma, ",", ⟨1, 1⟩⟩, ⟨.number, "2", ⟨1, 1⟩⟩, ⟨.rparen, ")", ⟨1, 1⟩⟩]]

theorem isCall_sample :
    IsCall (.spaced .identifier ['f']) (.spaced .lparen ['(']) sampleItems sampleArguments := by
  have hname {c : Char} (h : front .body c [] = .token .identifier c []) :
      (Written.spaced .identifier [c]).Valid :=
    Written.valid_spaced (spelled_of_front h (by decide)) (by decide)
  have hnumber {c : Char} (h : front .body c [] = .token .number c []) :
      (Written.spaced .number [c]).Valid :=
    Written.valid_spaced (spelled_of_front h (by decide)) (by decide)
  have hmark {k : Kind} {c : Char} (h : single? .body c = some k) (hk : k ≠ .comment) :
      (Written.spaced k [c]).Valid :=
    Written.valid_spaced (.single h) hk
  have hatom {t : Token} (h : t.kind ∈ atoms) : Derives (.expression 0) [t] :=
    Derives.loosen (Nat.zero_le 5) (Nat.le_refl 5) (.link (.atom h))
  refine ⟨?_, rfl, rfl, ?_, by decide⟩
  · simp only [sampleItems, List.forall_mem_cons]
    exact ⟨hname (by decide), hmark rfl (by decide), Written.valid_remark (by decide),
      hname (by decide), hmark rfl (by decide), hname (by decide), hmark rfl (by decide),
      hnumber (by decide), hmark rfl (by decide), hnumber (by decide), hmark rfl (by decide),
      List.forall_mem_nil _⟩
  · simp only [sampleArguments, List.forall_mem_cons]
    refine ⟨hatom (by decide), Derives.loosen (Nat.zero_le 5) (Nat.le_refl 5) (.link ?_),
      List.forall_mem_nil _⟩
    refine .call (a := [_]) (b := [_, _, _]) (.atom (by decide)) rfl
      (.firstArgument (a := [_]) (b := [_, _]) ?_ ?_) rfl
    · exact hatom (by decide)
    · exact .nextArgument (a := [_]) rfl (hatom (by decide)) .lastArgument

/-- Comments do not count, and the inner comma does not either. -/
theorem argumentCounts_agree_sample :
    IsCall (.spaced .identifier ['f']) (.spaced .lparen ['(']) sampleItems sampleArguments ∧
      (Call.ofPlugin "f ( // one, (two\nx , g ( 1 , 2 ) ) ;").head? = some ⟨⟨1, 1⟩, none, "f", 2⟩ :=
  ⟨isCall_sample, (argumentCounts_agree isCall_sample " ;".toList ⟨1, 1⟩).1⟩

end Partitura.ManuScript
