import Partitura.Proofs.Layout.Quotes
import Partitura.Proofs.Layout.Relexing

/-!
# The text of a method, laid out

A method is understood when its parentheses and its braces are closed (`methodParts?_eq_some_iff`).
Its layout is understood again, with the same brackets, and laid out as it is
(`memberText_memberText`); no quote in it comes to light (`scan_memberText`).
-/

namespace Partitura.Layout

open ManuScript ManuScript.Lexer Text

variable {o c : Char} {params code text : List Char}

/-! ## Brackets -/

/-- How many brackets are open after a text, when `d` are open before it; nothing if the last one of
them is closed in it. -/
def openAfter (o c : Char) : Nat → List Char → Option Nat
  | d, [] => some d
  | d, x :: r =>
    if x == o then openAfter o c (d + 1) r
    else if x == c then if d ≤ 1 then none else openAfter o c (d - 1) r
    else openAfter o c d r

/-- Every bracket that is opened in a text is closed in it, and no other one. -/
def Balanced (o c : Char) (cs : List Char) : Prop := openAfter o c 1 cs = some 1

/-- The bracket that is found closes the first one of those that are open. -/
theorem closingAt?_eq_some_iff (hco : c ≠ o) {d n : Nat} (hd : 0 < d) {cs : List Char} :
    closingAt? o c d cs = some n ↔ ∃ a b, cs = a ++ c :: b ∧ a.length = n ∧
      openAfter o c d a = some 1 := by
  constructor
  · intro h
    induction cs generalizing d n with
    | nil => cases h
    | cons x r ih =>
      -- a character in front of the one that is found
      have hgo : ∀ {d' : Nat}, 0 < d' → (closingAt? o c d' r).map (· + 1) = some n →
          (∀ a, openAfter o c d' a = some 1 → openAfter o c d (x :: a) = some 1) →
          ∃ a b, x :: r = a ++ c :: b ∧ a.length = n ∧ openAfter o c d a = some 1 := by
        intro d' hd' hm hopen
        obtain ⟨m, hm', rfl⟩ := Option.map_eq_some_iff.1 hm
        obtain ⟨a, b, rfl, rfl, ha⟩ := ih hd' hm'
        exact ⟨x :: a, b, rfl, rfl, hopen a ha⟩
      rw [closingAt?] at h
      split at h
      · next hx => exact hgo (by omega) h fun a ha => by simpa [openAfter, hx] using ha
      · next hx =>
        split at h
        · next hc =>
          split at h
          · cases h
            exact ⟨[], r, by rw [eq_of_beq hc]; rfl, rfl, by rw [openAfter, show d = 1 by omega]⟩
          · next hle =>
            exact hgo (by omega) h fun a ha => by simpa [openAfter, hx, hc, hle] using ha
        · next hc => exact hgo hd h fun a ha => by simpa [openAfter, hx, hc] using ha
  · rintro ⟨a, b, rfl, rfl, ha⟩
    induction a generalizing d with
    | nil =>
      cases ha
      simp [closingAt?, hco]
    | cons x a ih =>
      rw [openAfter] at ha
      rw [List.cons_append, closingAt?]
      split at ha
      · next hx => simp [hx, ih (by omega) ha]
      · next hx =>
        split at ha
        · next hc =>
          split at ha
          · cases ha
          · next hle => simp [hx, hc, hle, ih (by omega) ha]
        · next hc => simp [hx, hc, ih hd ha]

/-- The first bracket of a text is closed behind what is balanced. -/
theorem closingAt?_cons_eq_some_iff (hco : c ≠ o) {n : Nat} {cs : List Char} :
    closingAt? o c 0 (o :: cs) = some n ↔ ∃ a b, cs = a ++ c :: b ∧ a.length + 1 = n ∧
      Balanced o c a := by
  rw [closingAt?, if_pos (by simp), Option.map_eq_some_iff]
  simp only [closingAt?_eq_some_iff hco (Nat.zero_lt_succ 0)]
  constructor
  · rintro ⟨m, ⟨a, b, rfl, rfl, ha⟩, rfl⟩
    exact ⟨a, b, rfl, rfl, ha⟩
  · rintro ⟨a, b, rfl, rfl, ha⟩
    exact ⟨_, ⟨a, b, rfl, rfl, ha⟩, rfl⟩

theorem openAfter_inked (ho : isBlank o = false) (hc : isBlank c = false) (d : Nat)
    (cs : List Char) : openAfter o c d (inked cs) = openAfter o c d cs := by
  induction cs generalizing d with
  | nil => rfl
  | cons x r ih =>
    by_cases hx : isBlank x = true
    · have hxo : (x == o) = false := by simpa using ne_of_class hx ho
      have hxc : (x == c) = false := by simpa using ne_of_class hx hc
      rw [openAfter, hxo, hxc, ← ih d, inked_cons, show inked [x] = [] by simp [inked, hx]]
      rfl
    · rw [inked_cons, show inked [x] = [x] by simp [inked, hx], List.singleton_append,
        openAfter, openAfter]
      simp only [ih]

/-- Blanks do not matter for brackets. -/
theorem balanced_congr (ho : isBlank o = false) (hc : isBlank c = false) {a b : List Char}
    (h : inked a = inked b) : Balanced o c a ↔ Balanced o c b := by
  rw [Balanced, Balanced, ← openAfter_inked ho hc, h, openAfter_inked ho hc]

/-! ## The parts of a method -/

theorem drop_parens (p b : List Char) : ('(' :: p ++ ')' :: b).drop (p.length + 1 + 1) = b := by
  simp

/-- What is trimmed of a text that starts with a brace and ends behind another one. -/
theorem trim_braces {g : List Char} (hg : AllBlank g) (q z : List Char) :
    trim (g ++ '\x7b' :: q ++ '\x7d' :: z) = '\x7b' :: q ++ '\x7d' :: trimRight z := by
  have hsplit : g ++ '\x7b' :: q ++ '\x7d' :: z = g ++ ('\x7b' :: q ++ ['\x7d'] ++ z) := by simp
  rw [hsplit, trim_allBlank_append hg, trim, trimLeft_of_head (by simp; decide),
    trimRight_append_of_left]
  · simp
  · intro c hc
    rw [List.getLast?_append_of_ne_nil _ (by simp)] at hc
    cases hc
    decide

/-- A method is understood when its parentheses and its braces are closed and only blanks stand
between them. -/
theorem methodParts?_eq_some_iff {body : List Char} : methodParts? body = some (params, code) ↔
    ∃ p g q z, body = '(' :: p ++ ')' :: (g ++ '\x7b' :: q ++ '\x7d' :: z) ∧ AllBlank g ∧
      Balanced '(' ')' p ∧ Balanced '\x7b' '\x7d' q ∧ params = trim p ∧ code = trim q := by
  have hdef : methodParts? body = some (params, code) ↔ body.head? = some '(' ∧ ∃ m,
      closingAt? '(' ')' 0 body = some m ∧ (trim (body.drop (m + 1))).head? = some '\x7b' ∧ ∃ n,
        closingAt? '\x7b' '\x7d' 0 (trim (body.drop (m + 1))) = some n ∧
      trim (body.take m).tail = params ∧ trim ((trim (body.drop (m + 1))).take n).tail = code := by
    simp [methodParts?, Option.bind_eq_some_iff]
  rw [hdef]
  constructor
  · rintro ⟨hhead, m, hm, hbrace, n, hn, rfl, rfl⟩
    obtain ⟨r, rfl⟩ := List.head?_eq_some_iff.1 hhead
    obtain ⟨p, b, rfl, rfl, hp⟩ := (closingAt?_cons_eq_some_iff (by decide)).1 hm
    have hdrop : ('(' :: (p ++ ')' :: b)).drop (p.length + 1 + 1) = b := drop_parens p b
    rw [hdrop] at hbrace hn ⊢
    obtain ⟨r, hr⟩ := List.head?_eq_some_iff.1 hbrace
    rw [hr] at hn ⊢
    obtain ⟨q, z, rfl, rfl, hq⟩ := (closingAt?_cons_eq_some_iff (by decide)).1 hn
    obtain ⟨g, s, hg, hs, hb⟩ := exists_trim b
    refine ⟨p, g, q, z ++ s, ?_, hg, hp, hq, by simp, by simp⟩
    rw [hb, hr]
    simp
  · rintro ⟨p, g, q, z, rfl, hg, hp, hq, rfl, rfl⟩
    refine ⟨rfl, p.length + 1, (closingAt?_cons_eq_some_iff (by decide)).2 ⟨p, _, rfl, rfl, hp⟩, ?_⟩
    rw [drop_parens, trim_braces hg]
    exact ⟨rfl, q.length + 1,
      (closingAt?_cons_eq_some_iff (by decide)).2 ⟨q, _, rfl, rfl, hq⟩, by simp, by simp⟩

/-! ## Laying out a method -/

/-- The text between the braces of a method that is laid out. -/
def innerText (code : List Char) : List Char :=
  if code.isEmpty then [' '] else '\n' :: unlines (statements 2 code) ++ '\n' :: indentation

theorem methodBody_eq (h : methodParts? (trim text) = some (params, code)) :
    methodBody text =
      '(' :: params ++ ')' :: ([' '] ++ '\x7b' :: innerText code ++ '\x7d' :: []) := by
  simp only [methodBody, h, innerText]
  split <;> simp

theorem inked_statements (level : Int) (code : List Char) :
    inked (unlines (statements level code)) = (lexemes .body code).flatMap (inked ·.2) := by
  rw [inked_unlines, (rows_statements level code).inked_eq]

/-- Only blanks change in code without issues. -/
theorem inked_statements_of_issues (hok : Faultless .body code) (level : Int) :
    inked (unlines (statements level code)) = inked code := by
  rw [inked_statements]
  exact (leavesOut_lexemes .body code).eq_iff.2 (by rw [strays_eq_nil hok]; rfl)

theorem statements_nil (level : Int) : statements level [] = [] := by
  rw [statements_eq, lexemes_nil]
  rfl

theorem inked_innerText (code : List Char) :
    inked (innerText code) = inked (unlines (statements 2 code)) := by
  rw [innerText]
  split
  · next h =>
    rw [List.isEmpty_iff.1 h, statements_nil]
    decide
  · rw [List.cons_append, inked_cons, inked_append, inked_cons '\n' indentation,
      show inked ['\n'] = [] by decide, show inked indentation = [] by decide]
    simp

theorem trim_innerText (code : List Char) :
    trim (innerText code) = trim (unlines (statements 2 code)) := by
  rw [innerText]
  split
  · next h =>
    rw [List.isEmpty_iff.1 h, statements_nil]
    decide
  · rw [List.cons_append, show ∀ x : List Char, '\n' :: x = ['\n'] ++ x from fun _ => rfl,
      trim_allBlank_append (by decide), trim_append_of_allBlank _ (by decide)]

/-- The code of a method that was laid out is laid out as it was. -/
theorem innerText_trim (hok : Faultless .body code) (htrim : Trimmed code) :
    innerText (trim (unlines (statements 2 code))) = innerText code := by
  by_cases hcode : code = []
  · rw [hcode, statements_nil]
    rfl
  · have hne : trim (unlines (statements 2 code)) ≠ [] := by
      intro hn
      have hink := (trim_eq_nil_iff.1 hn).inked_eq_nil
      rw [inked_statements_of_issues hok, inked_eq_nil_iff, ← trim_eq_nil_iff,
        trim_of_trimmed htrim] at hink
      exact hcode hink
    rw [innerText, innerText, if_neg (by simpa using hne), if_neg (by simpa using hcode),
      statements_trim_unlines_statements (ne_invalid_of_mem_lexemes hok)]

/-- The text of a method is understood, and its code is lexed without issues. -/
def Understood (text : List Char) : Prop :=
  ∃ parts ∈ methodParts? (trim text), (lex .body ⟨1, 1⟩ parts.2).issues = []

instance (text : List Char) : Decidable (Understood text) :=
  inferInstanceAs (Decidable (∃ parts ∈ _, _))

theorem methodParts?_methodBody (h : methodParts? (trim text) = some (params, code))
    (hok : Faultless .body code) :
    methodParts? (methodBody text) = some (params, trim (unlines (statements 2 code))) := by
  obtain ⟨p, g, q, z, -, -, hp, hq, rfl, rfl⟩ := methodParts?_eq_some_iff.1 h
  rw [methodBody_eq h]
  refine methodParts?_eq_some_iff.2
    ⟨trim p, [' '], innerText (trim q), [], rfl, by decide, ?_, ?_, ?_, ?_⟩
  · exact (balanced_congr (by decide) (by decide) (inked_trim p)).2 hp
  · refine (balanced_congr (by decide) (by decide) ?_).2 hq
    rw [inked_innerText, inked_statements_of_issues hok, inked_trim]
  · rw [trim_trim]
  · rw [trim_innerText]

/-- A method that was laid out starts with a parenthesis and ends with a brace. -/
theorem trim_methodBody (h : methodParts? (trim text) = some (params, code)) :
    trim (methodBody text) = methodBody text := by
  have hlast :
      methodBody text =
        '(' :: params ++ ')' :: ([' '] ++ '\x7b' :: innerText code) ++ ['\x7d'] := by
    rw [methodBody_eq h]
    simp
  refine trim_of_trimmed ⟨by rw [hlast]; simp; decide, ?_⟩
  rw [hlast, List.getLast?_concat]
  simp
  decide

/-- The text of a member that was laid out stays as it is when it is laid out again. -/
theorem memberText_memberText (h : (trim text).head? = some '(' → Understood text) :
    memberText (memberText text) = memberText text := by
  by_cases hm : (trim text).head? = some '('
  · obtain ⟨⟨params, code⟩, hparts, hissues⟩ := h hm
    have hok := issues_eq_nil_iff.1 hissues
    have htext : memberText text = methodBody text := by simp [memberText, hm]
    have hparts' :
        methodParts? (trim (methodBody text)) =
          some (params, trim (unlines (statements 2 code))) := by
      rw [trim_methodBody hparts, methodParts?_methodBody hparts hok]
    have hagain : methodBody (methodBody text) = methodBody text := by
      obtain ⟨p, g, q, z, -, -, -, -, -, rfl⟩ := methodParts?_eq_some_iff.1 hparts
      rw [methodBody_eq hparts', methodBody_eq hparts, innerText_trim hok (trimmed_trim q)]
    have hhead : (trim (methodBody text)).head? = some '(' := by
      rw [trim_methodBody hparts, methodBody_eq hparts]
      rfl
    rw [htext, memberText, hhead, if_pos (by simp), hagain]
  · have htext : memberText text = text := by simp [memberText, hm]
    rw [htext, htext]

/-! ## Quotes in a method -/

theorem scan_innerText (hok : Faultless .body code) (hs : scan false code ≠ none)
    (rest : List Char) : scan false (innerText code ++ rest) = scan false rest := by
  rw [innerText]
  split
  · exact scan_cons_of_ne (by decide) _ _
  · have hlines : scan false (unlines (statements 2 code)) ≠ none := by
      rw [ne_eq, scan_unlines_eq_none]
      rintro ⟨line, hm, hn⟩
      exact scan_of_mem_statements hok hs hm hn
    obtain ⟨e, he⟩ := Option.ne_none_iff_exists'.1 hlines
    rw [List.cons_append, List.cons_append, scan_newline, List.append_assoc, List.cons_append,
      scan_append_newline, he, Option.bind_some,
      scan_append_of_forall (forall_mem_of_all (by decide))]

/-- A member that ends at a quote ends there when it is laid out. -/
theorem scan_memberText (h : (trim text).head? = some '(' → Understood text)
    (hs : scan false text = some false) : scan false (memberText text) = some false := by
  by_cases hm : (trim text).head? = some '('
  · obtain ⟨⟨params, code⟩, hparts, hissues⟩ := h hm
    have hok := issues_eq_nil_iff.1 hissues
    have htext : memberText text = methodBody text := by simp [memberText, hm]
    have hs' : scan false (trim text) ≠ none := by
      rw [ne_eq, scan_trim_eq_none, hs]
      simp
    rw [htext, methodBody_eq hparts]
    obtain ⟨p, g, q, z, hbody, hg, -, -, rfl, rfl⟩ := methodParts?_eq_some_iff.1 hparts
    rw [hbody, List.cons_append, scan_cons_of_ne (by decide), scan_append] at hs'
    have hp : scan false p ≠ none := by
      intro hn
      exact hs' (by rw [hn]; rfl)
    obtain ⟨e, he⟩ := Option.ne_none_iff_exists'.1 hp
    have hq : scan false q ≠ none := by
      intro hn
      rw [he, Option.bind_some, scan_cons_of_ne (by decide), List.append_assoc,
        scan_allBlank_append hg, List.cons_append, scan_cons_of_ne (by decide), scan_append, hn]
          at hs'
      exact hs' rfl
    obtain ⟨e', he'⟩ : ∃ e', scan false (trim p) = some e' :=
      Option.ne_none_iff_exists'.1 (by rwa [ne_eq, scan_trim_eq_none])
    rw [List.cons_append, scan_cons_of_ne (by decide), scan_append, he', Option.bind_some,
      scan_cons_of_ne (by decide), List.append_assoc,
      scan_append_of_forall (forall_mem_of_all (by decide)), List.cons_append,
      scan_cons_of_ne (by decide), scan_innerText hok (by rwa [ne_eq, scan_trim_eq_none])]
    rfl
  · have htext : memberText text = text := by simp [memberText, hm]
    rw [htext, hs]

end Partitura.Layout
