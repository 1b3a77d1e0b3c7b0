import Mathlib.Data.List.Chain
import Partitura.Proofs.Layout.Stability
import Partitura.Proofs.ManuScript.Sheets

/-!
# The layout keeps the meaning of a plugin

A plugin file made of entries is laid out as the plugin file of the entries laid out
(`plugin_sheet`), so it is enough to look at one entry. A value stays as it is. A method keeps its
parameters, whatever blanks are around them (`paramsOf_trim`), and its tokens (`MethodOf.laid`). Two
things could go wrong with the tokens: a comment loses the blanks at its end, which `neat` makes up
for, and a number would take in the point or the number behind it, so such neighbours are left out
(`NumbersApart`).
-/

namespace Partitura.Layout

open ManuScript ManuScript.Lexer Text

variable {a b content params gap inner : List Char} {e : Entry}

/-! ## Blanks around code -/

/-- Blanks in front of code without faults are white space. -/
theorem faultless_of_allBlank_append (ha : AllBlank a) {rest : List Char}
    (hok : Faultless .body (a ++ rest)) : Faultless .body rest := by
  induction a with
  | nil => exact hok
  | cons c a ih =>
    obtain ⟨hc, ha⟩ := allBlank_cons.1 ha
    rw [List.cons_append] at hok
    obtain ⟨hfront, hrest⟩ := faultless_cons.1 hok
    rcases front_of_isBlank hc .body (a ++ rest) with hf | hf
    · rw [hf] at hrest
      exact ih ha hrest
    · rw [hf] at hfront
      cases hfront

theorem lexemes_of_allBlank (ha : AllBlank a) : lexemes .body a = [] := by
  rw [← List.append_nil a, lexemes_allBlank_append ha, lexemes_nil]

/-- Blanks at the end of a lexeme are in a comment, and it is one without them. -/
theorem spelled_of_append_allBlank {k : Kind} {w : List Char} (hw : w ≠ []) (hb : AllBlank b)
    (h : Spelled k (w ++ b)) : Spelled k w ∧ neat (k, w) = neat (k, w ++ b) := by
  by_cases hc : k = .comment
  · subst hc
    obtain ⟨u, hu, hnl⟩ := h.exists_of_comment
    -- both slashes are in `w`, since they are no blanks
    obtain ⟨v, rfl, rfl⟩ : ∃ v, w = '/' :: '/' :: v ∧ u = v ++ b := by
      obtain ⟨x, w, rfl⟩ := List.exists_cons_of_ne_nil hw
      rw [List.cons_append, List.cons.injEq] at hu
      cases w with
      | nil =>
        rw [List.nil_append] at hu
        rw [hu.2] at hb
        exact absurd (allBlank_cons.1 hb).1 (by decide)
      | cons y v =>
        rw [List.cons_append, List.cons.injEq] at hu
        exact ⟨v, by rw [hu.1, hu.2.1], hu.2.2.symm⟩
    refine ⟨.comment fun hmem => hnl (by simp [hmem]), ?_⟩
    rw [neat, neat, if_pos rfl, if_pos rfl]
    simp only [trimRight_append_of_allBlank _ hb]
  · have hnil : b = [] := by
      by_contra hne
      have hlast := h.last hc
      rw [List.getLast?_append_of_ne_nil _ hne] at hlast
      obtain ⟨z, hz⟩ : ∃ z, b.getLast? = some z := ⟨_, List.getLast?_eq_some_getLast hne⟩
      have hblank := hb z (List.mem_of_getLast? hz)
      rw [hlast z hz] at hblank
      cases hblank
    rw [hnil, List.append_nil] at h ⊢
    exact ⟨h, rfl⟩

/-- Blanks at the end of code without faults belong to a comment or to nothing. -/
theorem lexemes_append_allBlank (hb : AllBlank b) (cs : List Char)
    (hok : Faultless .body (cs ++ b)) :
    Faultless .body cs ∧ (lexemes .body cs).map neat = (lexemes .body (cs ++ b)).map neat := by
  induction hn : cs.length using Nat.strong_induction_on generalizing cs with | _ n ih
  cases cs with
  | nil =>
    rw [List.nil_append] at hok ⊢
    rw [lexemes_of_allBlank hb, lexemes_nil]
    exact ⟨faultless_nil .body, rfl⟩
  | cons x r =>
    rw [List.cons_append] at hok
    rcases first_of_faultless hok with ⟨hgap, hr⟩ | ⟨k, v, t, ht, hk, hspelled, hends, hrest⟩
    · obtain ⟨hr, heq⟩ := ih r.length (by rw [← hn, List.length_cons]; omega) r hr rfl
      rw [List.cons_append, lexemes_gap _ hgap, lexemes_gap _ hgap]
      exact ⟨faultless_gap hgap hr, heq⟩
    · rw [List.cons_append, ht, ← List.cons_append, lexemes_spelled hspelled hends]
      rcases List.append_eq_append_iff.1 ht.symm with ⟨r', rfl, rfl⟩ | ⟨b', rfl, rfl⟩
      · -- the token ends where the blanks start, or before
        have hends' : Ends k r' := by
          cases r' with
          | nil => exact ends_nil k
          | cons z r' => exact hends
        obtain ⟨hr, heq⟩ :=
          ih r'.length (by rw [← hn, List.length_cons, List.length_append]; omega) r' hrest rfl
        refine ⟨faultless_spelled hspelled hk hends' hr, ?_⟩
        rw [← List.cons_append, lexemes_spelled hspelled hends', List.map_cons, List.map_cons, heq]
      · -- the token ends among the blanks
        obtain ⟨hb', ht⟩ := allBlank_append.1 hb
        rw [← List.cons_append] at hspelled
        obtain ⟨hs, hneat⟩ := spelled_of_append_allBlank (by simp) hb' hspelled
        have hlex := lexemes_spelled hs (ends_nil k)
        have hfault := faultless_spelled hs hk (ends_nil k) (faultless_nil .body)
        rw [List.append_nil] at hlex hfault
        rw [lexemes_of_allBlank ht, hlex, lexemes_nil, List.map_singleton,
          List.map_singleton, hneat]
        exact ⟨hfault, rfl⟩

/-- The blanks around code without faults do not matter, but for the one comment at its end. -/
theorem lexemes_trim {cs : List Char} (hok : Faultless .body cs) :
    Faultless .body (trim cs) ∧
      (lexemes .body (trim cs)).map neat = (lexemes .body cs).map neat := by
  obtain ⟨a, b, ha, hb, hcs⟩ := exists_trim cs
  rw [hcs, List.append_assoc] at hok
  obtain ⟨htrim, hneat⟩ :=
    lexemes_append_allBlank hb (trim cs) (faultless_of_allBlank_append ha hok)
  refine ⟨htrim, ?_⟩
  rw [hneat, ← lexemes_allBlank_append ha, ← List.append_assoc, ← hcs]

/-! ## Numbers that stand apart -/

/-- No number is directly followed by a point or a number. -/
def NumbersApart (ls : List (Kind × List Char)) : Prop :=
  ls.IsChain fun a b => a.1 = .number → b.1 ≠ .dot ∧ b.1 ≠ .number

instance (ls : List (Kind × List Char)) : Decidable (NumbersApart ls) :=
  inferInstanceAs (Decidable (List.IsChain _ ls))

theorem NumbersApart.clear {ls : List (Kind × List Char)} (h : NumbersApart ls) : NumbersClear ls :=
  h.imp fun _ _ hab ha => ⟨(hab ha).1, fun hb => (hab ha).2 hb.2.1⟩

theorem numbersApart_map_neat {ls : List (Kind × List Char)} :
    NumbersApart (ls.map neat) ↔ NumbersApart ls := by
  simp only [NumbersApart, List.isChain_map, neat_fst]

/-! ## Methods with nothing around them -/

/-- A text that is a method: parameters, blanks, and the code between the braces, where the layout
finds the brackets closed. -/
structure MethodOf (content params gap inner : List Char) : Prop where
  content_eq : content = '(' :: params ++ ')' :: (gap ++ '\x7b' :: inner ++ ['\x7d'])
  gap_blank : AllBlank gap
  parens : closingAt? '(' ')' 0 content = some (params.length + 1)
  braces : closingAt? '\x7b' '\x7d' 0 ('\x7b' :: inner ++ ['\x7d']) = some (inner.length + 1)

/-- The first bracket is closed where its text ends exactly if the text is balanced. -/
theorem closingAt?_eq_length_iff {o c : Char} (hco : c ≠ o) :
    closingAt? o c 0 (o :: a ++ c :: b) = some (a.length + 1) ↔ Balanced o c a := by
  rw [List.cons_append, closingAt?_cons_eq_some_iff hco]
  constructor
  · rintro ⟨a', b', hsplit, hlen, ha⟩
    obtain ⟨rfl, -⟩ := List.append_inj hsplit (by omega)
    exact ha
  · exact fun ha => ⟨a, b, rfl, rfl, ha⟩

theorem methodOf_iff : MethodOf content params gap inner ↔
    content = '(' :: params ++ ')' :: (gap ++ '\x7b' :: inner ++ ['\x7d']) ∧ AllBlank gap ∧
      Balanced '(' ')' params ∧ Balanced '\x7b' '\x7d' inner := by
  constructor
  · rintro ⟨hcontent, hgap, hparens, hbraces⟩
    rw [hcontent] at hparens
    exact ⟨hcontent, hgap, (closingAt?_eq_length_iff (by decide)).1 hparens,
      (closingAt?_eq_length_iff (by decide)).1 hbraces⟩
  · rintro ⟨hcontent, hgap, hparens, hbraces⟩
    refine ⟨hcontent, hgap, ?_, (closingAt?_eq_length_iff (by decide)).2 hbraces⟩
    rw [hcontent]
    exact (closingAt?_eq_length_iff (by decide)).2 hparens

/-- A text is a method in one way only. -/
theorem MethodOf.unique {params' gap' inner' : List Char} (h : MethodOf content params gap inner)
    (h' : MethodOf content params' gap' inner') :
    params = params' ∧ gap = gap' ∧ inner = inner' := by
  have hlen := Option.some.inj (h.parens.symm.trans h'.parens)
  have hsplit := h.content_eq.symm.trans h'.content_eq
  obtain ⟨hparams, hrest⟩ := List.append_inj hsplit (by simpa using hlen)
  have hgap {g r : List Char} (hg : AllBlank g) : (g ++ '\x7b' :: r).takeWhile isBlank = g :=
    takeWhile_append_of_head hg (by simp; decide)
  have hbody := (List.cons.inj hrest).2
  simp only [List.append_assoc, List.cons_append] at hbody
  have hgaps : gap = gap' := by rw [← hgap h.gap_blank, hbody, hgap h'.gap_blank]
  rw [hgaps, List.append_cancel_left_eq, List.cons.injEq, List.append_cancel_right_eq] at hbody
  exact ⟨(List.cons.inj hparams).2, hgaps, hbody.2⟩

/-- A method is laid out from its trimmed parameters and its trimmed code. -/
theorem MethodOf.memberText_eq (h : MethodOf content params gap inner) :
    methodParts? (trim content) = some (trim params, trim inner) ∧
      memberText content =
        '(' :: trim params ++ ')' :: ([' '] ++ '\x7b' :: innerText (trim inner) ++ ['\x7d']) := by
  obtain ⟨hcontent, hgap, hparens, hbraces⟩ := methodOf_iff.1 h
  have htrim : trim content = content := by
    refine trim_of_trimmed ⟨by rw [hcontent]; simp; decide, ?_⟩
    have hlast : content = '(' :: params ++ ')' :: (gap ++ '\x7b' :: inner) ++ ['\x7d'] := by
      rw [hcontent]; simp
    rw [hlast, List.getLast?_concat]
    simp
    decide
  have hparts : methodParts? (trim content) = some (trim params, trim inner) :=
    methodParts?_eq_some_iff.2 ⟨params, gap, inner, [], by rw [htrim, hcontent], hgap, hparens,
      hbraces, rfl, rfl⟩
  refine ⟨hparts, ?_⟩
  rw [memberText, htrim, if_pos (by rw [hcontent]; simp), methodBody_eq hparts]

/-- The tokens between the braces of a method that is laid out. -/
theorem lexemes_innerText {code : List Char} (h : ∀ l ∈ lexemes .body code, l.1 ≠ .invalid) :
    lexemes .body (innerText code) = fused ((lexemes .body code).map neat) := by
  have hnone := lexemes_statements h 2 []
  have hlast := lexemes_statements h 2 [indentation]
  have hblank : lexemes .body (unlines [indentation]) = [] :=
    lexemes_of_allBlank allBlank_indentation
  rw [hblank, List.append_nil] at hlast
  rw [unlines_nil, lexemes_nil, List.append_nil, List.append_nil] at hnone
  rw [innerText]
  split
  · next hcode =>
    rw [List.isEmpty_iff.1 hcode, lexemes_nil]
    exact lexemes_of_allBlank (allBlank_of_spaces (by simp))
  · rw [List.cons_append, show ∀ x : List Char, '\n' :: x = ['\n'] ++ x from fun _ => rfl,
      lexemes_allBlank_append (by decide)]
    by_cases hst : statements 2 code = []
    · rw [hst, unlines_nil] at hnone ⊢
      rw [← hnone, lexemes_nil, List.nil_append]
      exact lexemes_of_allBlank (allBlank_cons.2 ⟨by decide, allBlank_indentation⟩)
    · rw [unlines_append hst (by simp)] at hlast
      exact hlast

/-- The method that is written for a method has the same tokens, but for the ends of comments. -/
theorem MethodOf.laid (h : MethodOf content params gap inner) (hok : Faultless .body inner)
    (hnum : NumbersApart (lexemes .body inner)) :
    MethodOf (memberText content) (trim params) [' '] (innerText (trim inner)) ∧
      lexemes .body (innerText (trim inner)) = (lexemes .body inner).map neat := by
  obtain ⟨hparts, htext⟩ := h.memberText_eq
  obtain ⟨-, -, hparens, hbraces⟩ := methodOf_iff.1 h
  obtain ⟨htrim, hneat⟩ := lexemes_trim hok
  constructor
  · refine methodOf_iff.2 ⟨htext, allBlank_of_spaces (by simp), ?_, ?_⟩
    · exact (balanced_congr (by decide) (by decide) (inked_trim params)).2 hparens
    · refine (balanced_congr (by decide) (by decide) ?_).2 hbraces
      rw [inked_innerText, inked_statements_of_issues htrim, inked_trim]
  · have happart : NumbersApart ((lexemes .body (trim inner)).map neat) := by
      rw [hneat]
      exact numbersApart_map_neat.2 hnum
    rw [lexemes_innerText (ne_invalid_of_mem_lexemes htrim),
      fused_of_numbersClear happart.clear, hneat]

/-! ## Parameters -/

theorem trim_takeWhile_trim {f : Char → Bool} (hf : ∀ c, isBlank c = true → f c = true)
    (cs : List Char) : trim ((trim cs).takeWhile f) = trim (cs.takeWhile f) := by
  obtain ⟨a, b, ha, hb, hcs⟩ := exists_trim cs
  generalize trim cs = t at hcs
  have hall {x : List Char} (hx : AllBlank x) : ∀ c ∈ x, f c = true := fun c hc => hf c (hx c hc)
  rw [hcs, List.append_assoc, List.takeWhile_append_of_pos (hall ha), trim_allBlank_append ha,
    List.takeWhile_append]
  split
  · next hlen =>
    rw [(List.takeWhile_prefix f).eq_of_length hlen, List.takeWhile_eq_self_iff.2 (hall hb),
      trim_append_of_allBlank _ hb]
  · rfl

theorem takeWhile_append_paren (p x : List Char) :
    (p ++ ')' :: x).takeWhile (· != ')') = p.takeWhile (· != ')') := by
  rw [List.takeWhile_append]
  split
  · next hlen => simp [(List.takeWhile_prefix _).eq_of_length hlen]
  · rfl

/-- The parameters do not depend on blanks around them nor on what follows the parenthesis. -/
theorem paramsOf_trim (p x y : List Char) :
    Plugin.paramsOf ('(' :: trim p ++ ')' :: x) = Plugin.paramsOf ('(' :: p ++ ')' :: y) := by
  have hlt (q z : List Char) : (q.takeWhile (· != ')')).length < (q ++ ')' :: z).length := by
    have := (List.takeWhile_prefix (l := q) (· != ')')).length_le
    simp
    omega
  have htrim :=
    trim_takeWhile_trim (f := (· != ')')) (fun c hc => by simpa using ne_of_class hc (by decide)) p
  simp only [Plugin.paramsOf, List.cons_append, takeWhile_append_paren, hlt, if_true, htrim]

/-! ## Entries -/

/-- An entry that keeps its meaning: a plain value, or a method in which the code has no faults and
the numbers stand apart. -/
structure Sound (e : Entry) : Prop where
  valid : e.Valid
  shape : (trim e.content).head? ≠ some '(' ∨ ∃ params gap inner,
    MethodOf e.content params gap inner ∧ (lex .body ⟨1, 1⟩ inner).issues = [] ∧
      NumbersApart ((lex .body ⟨1, 1⟩ inner).tokens.map Token.lexeme)

/-- The entry that is written for an entry. -/
def laid (e : Entry) : Entry := ⟨e.name, memberText e.content⟩

theorem text_laid (e : Entry) : (laid e).text indentation = memberLine e.name e.content := rfl

theorem memberText_of_plain (h : (trim content).head? ≠ some '(') :
    memberText content = content := by
  simp [memberText, h]

theorem valid_laid (he : Sound e) : (laid e).Valid := by
  refine ⟨he.valid.name, escaped_iff.2 (scan_memberText ?_ (escaped_iff.1 he.valid.content))⟩
  intro hhead
  rcases he.shape with hplain | ⟨params, gap, inner, hm, hissues, -⟩
  · exact absurd hhead hplain
  · refine ⟨_, hm.memberText_eq.1, ?_⟩
    exact issues_eq_nil_iff.2 (lexemes_trim (issues_eq_nil_iff.1 hissues)).1

/-- An entry stands for the same after it was laid out. -/
theorem outline_laid (he : Sound e) : (laid e).outline = e.outline := by
  rcases he.shape with hplain | ⟨params, gap, inner, hm, -, -⟩
  · simp [laid, memberText_of_plain hplain]
  · have htext := hm.memberText_eq.2
    have hparams : Plugin.paramsOf (memberText e.content) = Plugin.paramsOf e.content := by
      rw [htext, hm.content_eq]
      exact paramsOf_trim params _ _
    have hhead : (memberText e.content).head? = some '(' ∧ e.content.head? = some '(' := by
      rw [htext, hm.content_eq]
      exact ⟨rfl, rfl⟩
    simp [Entry.outline, Entry.value, laid, hparams, hhead]

/-! ## Plugin files -/

/-- The layout at the lines of entries. -/
theorem pluginLines_entries {indent : List Char} (hindent : AllBlank indent) (hnl : '\n' ∉ indent)
    {es : List Entry} (hes : ∀ e ∈ es, e.Valid) (last : Option (List Char))
    (rest : List (List Char)) :
    pluginLines 0 last ((es.map (·.text indent)).flatMap lines ++ rest) =
      (es.map laid).map (·.text indentation) ++
        pluginLines 0 (((es.map laid).map (·.text indentation)).getLast?.or last) rest := by
  induction es generalizing last with
  | nil => simp
  | cons e es ih =>
    obtain ⟨hname, hcontent⟩ := hes e (by simp)
    obtain ⟨line, more, hlines, hmember⟩ :=
      exists_lines_of_name hindent hnl hname.ne_nil hname.isWordChar (escaped_iff.1 hcontent)
    have hlines : lines (e.text indent) = line :: more := hlines
    rw [List.map_cons, List.flatMap_cons, hlines, List.append_assoc, List.cons_append,
      pluginLines_member hmember, ih fun e he => hes e (by simp [he])]
    simp only [List.map_cons, text_laid, List.cons_append, getLast?_cons_or]

/-- A brace in a line of its own stays there. -/
theorem pluginLines_brace {c : Char} (hc : c = '\x7b' ∨ c = '\x7d') (last : Option (List Char))
    (rest : List (List Char)) :
    pluginLines 0 last ([c] :: rest) = [c] :: pluginLines 0 (some [c]) rest := by
  have hplain : plainLine last [c] = [[c]] := by
    rcases hc with rfl | rfl <;> rfl
  have hscan : scan false [c] ≠ none := by
    rcases hc with rfl | rfl <;> decide
  rw [pluginLines_plain (member?_of_scan hscan rest), hplain]
  rfl

/-- A plugin file is laid out as the plugin file of the entries that are laid out. -/
theorem plugin_sheet {indent fin : List Char} (hindent : AllBlank indent) (hnl : '\n' ∉ indent)
    (hfin : fin = [] ∨ fin = ['\n']) {es : List Entry} (hes : ∀ e ∈ es, e.Valid) :
    plugin (sheet indent es ++ fin) = sheet indentation (es.map laid) ++ ['\n'] := by
  obtain ⟨more, hmore, hlines⟩ : ∃ more, (more = [] ∨ more = [[]]) ∧
      lines (sheet indent es ++ fin) =
        ['\x7b'] :: ((es.map (·.text indent)).flatMap lines ++ ['\x7d'] :: more) := by
    have hsheet :
        lines (sheet indent es) =
          ['\x7b'] :: ((es.map (·.text indent)).flatMap lines ++ [['\x7d']]) := by
      rw [sheet, lines_unlines (by simp), List.flatMap_append]
      rfl
    rcases hfin with rfl | rfl
    · exact ⟨[], .inl rfl, by rw [List.append_nil, hsheet]⟩
    · refine ⟨[[]], .inr rfl, ?_⟩
      rw [lines_append_newline, hsheet, show lines [] = [[]] from rfl]
      simp
  have hend :
      ∀ out : List (List Char), ended (out ++ ['\x7d'] :: pluginLines 0 (some ['\x7d']) more) =
      out ++ [['\x7d'], []] := by
    intro out
    rcases hmore with rfl | rfl
    · simp [ended, pluginLines]
    · rw [pluginLines_empty_line]
      simp [ended]
  rw [plugin_eq, hlines, pluginLines_brace (.inl rfl), pluginLines_entries hindent hnl hes,
    pluginLines_brace (.inr rfl), ← List.cons_append, hend, sheet]
  rw [show ∀ out : List (List Char), out ++ [['\x7d'], []] = (out ++ [['\x7d']]) ++ [[]] by simp,
    unlines_append (by simp) (by simp)]
  rfl

/-- The tokens of code: their kinds and their texts. -/
def codeTokens (code : List Char) : List (Kind × List Char) :=
  (lex .body ⟨1, 1⟩ code).tokens.map Token.lexeme

/-- The method of a sound entry is written with the same tokens, but for the ends of comments. -/
theorem exists_methodOf_laid (he : Sound e) (h : MethodOf e.content params gap inner) :
    ∃ inner', MethodOf (laid e).content (trim params) [' '] inner' ∧
      codeTokens inner' = (codeTokens inner).map neat := by
  rcases he.shape with hplain | ⟨params', gap', inner', hm, hissues, hnum⟩
  · refine absurd ?_ hplain
    rw [h.content_eq, List.cons_append, trim_cons (by decide)]
    rfl
  · obtain ⟨rfl, rfl, rfl⟩ := h.unique hm
    rw [map_lexeme_tokens] at hnum
    obtain ⟨hmethod, htokens⟩ := hm.laid (issues_eq_nil_iff.1 hissues) hnum
    exact ⟨_, hmethod,
      by rw [codeTokens, codeTokens, map_lexeme_tokens, map_lexeme_tokens, htokens]⟩

/-- **Layout keeps what a plugin means.** A plugin file with sound entries is read as a plugin
before and after it is laid out: the same members in the same order, each one with its name, its
kind, and its parameters or its value. The layout is the plugin file of the entries laid out, and
the tokens of each method stay the same but for blanks at the ends of comments. -/
theorem parse_plugin_sheet {indent fin : List Char} (hindent : AllBlank indent)
    (hnl : '\n' ∉ indent) (hfin : fin = [] ∨ fin = ['\n']) {es : List Entry}
    (hes : ∀ e ∈ es, Sound e) :
    plugin (sheet indent es ++ fin) = sheet indentation (es.map laid) ++ ['\n'] ∧
      (∃ before after, Plugin.parse (String.ofList (sheet indent es ++ fin)) = .ok before ∧
        Plugin.parse (String.ofList (plugin (sheet indent es ++ fin))) = .ok after ∧
        before.members.map Member.outline = es.map Entry.outline ∧
        after.members.map Member.outline = before.members.map Member.outline) ∧
      ∀ e ∈ es, ∀ params gap inner, MethodOf e.content params gap inner →
        ∃ inner', MethodOf (laid e).content (trim params) [' '] inner' ∧
          codeTokens inner' = (codeTokens inner).map neat := by
  have hvalid : ∀ e ∈ es, e.Valid := fun e he => (hes e he).valid
  have hvalid' : ∀ e ∈ es.map laid, e.Valid := by
    intro e he
    obtain ⟨e', he', rfl⟩ := List.mem_map.1 he
    exact valid_laid (hes e' he')
  have hplugin := plugin_sheet hindent hnl hfin hvalid
  obtain ⟨before, hbefore, hmembers⟩ := parse_sheet hindent hvalid fin
  obtain ⟨after, hafter, hmembers'⟩ := parse_sheet allBlank_indentation hvalid' ['\n']
  refine ⟨hplugin, ⟨before, after, hbefore, by rw [hplugin, hafter], hmembers, ?_⟩, ?_⟩
  · rw [hmembers, hmembers', List.map_map]
    exact List.map_congr_left fun e he => outline_laid (hes e he)
  · exact fun e he params gap inner h => exists_methodOf_laid (hes e he) h

/-- The code of a method with a comment that ends in a blank. -/
def noteCode : List Char := "x=a . 1;// note \nif(x)\x7by('s');\x7delse\x7b\x7d".toList

def noteMethod : Entry := ⟨"Run".toList, "( a, b )\n \x7b".toList ++ noteCode ++ ['\x7d']⟩

theorem methodOf_noteMethod : MethodOf noteMethod.content " a, b ".toList "\n ".toList noteCode :=
  ⟨by decide +kernel, by decide, by decide +kernel, by decide +kernel⟩

theorem sound_noteMethod : Sound noteMethod :=
  ⟨⟨by decide, escaped_iff.2 (by decide +kernel)⟩,
    .inr ⟨_, _, _, methodOf_noteMethod, by decide +kernel, by decide +kernel⟩⟩

/-- A value over two lines. -/
def noteTitle : Entry := ⟨"Title".toList, "one \\\"two\\\"\n  (three)".toList⟩

theorem parse_plugin_sheet_note : (∀ e ∈ [noteTitle, noteMethod], Sound e) ∧
    (∃ before after,
      Plugin.parse (String.ofList (sheet [] [noteTitle, noteMethod] ++ ['\n'])) = .ok before ∧
      Plugin.parse (String.ofList (plugin (sheet [] [noteTitle, noteMethod] ++ ['\n']))) =
        .ok after ∧
      before.members.map Member.outline =
        [("Title", .variable "one \\\"two\\\"\n  (three)"), ("Run", .method ["a", "b"])] ∧
      after.members.map Member.outline = before.members.map Member.outline) ∧
    ∃ inner, MethodOf (laid noteMethod).content "a, b".toList [' '] inner ∧
      codeTokens inner = (codeTokens noteCode).map neat := by
  have hes : ∀ e ∈ [noteTitle, noteMethod], Sound e := by
    intro e he
    rcases List.mem_pair.1 he with rfl | rfl
    · exact ⟨⟨by decide, escaped_iff.2 (by decide +kernel)⟩, .inl (by decide +kernel)⟩
    · exact sound_noteMethod
  have hindent : AllBlank [] := by decide
  obtain ⟨-, ⟨before, after, hbefore, hafter, hout, hsame⟩, hcode⟩ :=
    parse_plugin_sheet hindent (by decide) (.inr rfl) hes
  have hrun := hcode noteMethod (by simp) _ _ _ methodOf_noteMethod
  exact ⟨hes, ⟨before, after, hbefore, hafter, hout.trans (by decide +kernel), hsame⟩, hrun⟩

/-- The blank at the end of the comment is lost, so the tokens of the method are not quite the
same. -/
theorem codeTokens_laid_noteMethod : ∃ inner, Sound noteMethod ∧
    MethodOf noteMethod.content " a, b ".toList "\n ".toList noteCode ∧
    MethodOf (laid noteMethod).content "a, b".toList [' '] inner ∧
      codeTokens inner ≠ codeTokens noteCode := by
  obtain ⟨inner, hinner, htokens⟩ := exists_methodOf_laid sound_noteMethod methodOf_noteMethod
  refine ⟨inner, sound_noteMethod, methodOf_noteMethod, hinner, ?_⟩
  rw [htokens]
  decide +kernel

end Partitura.Layout
