import Partitura.Proofs.Layout.Members
import Partitura.Proofs.Layout.Stability

/-!
# What the layout leaves out

The layout writes the characters of a plugin in their order and none twice, but not all of them:
what stands in a line after the quote that ends a member goes, what stands behind the last brace of
a method goes, and so do the characters of its code that start no token. `lost` collects them, and
`leavesOut_pluginLines` says that they are all that goes, blanks apart. So the layout changes only
blanks exactly when nothing but blanks is lost.
-/

namespace Partitura.Layout

open ManuScript ManuScript.Lexer Text

/-! ## Lost text -/

/-- What stands behind the brace that ends a method. -/
def behindMethod (body : List Char) : List Char :=
  let rest := trim (body.drop ((closingAt? '(' ')' 0 body).getD 0 + 1))
  rest.drop ((closingAt? '\x7b' '\x7d' 0 rest).getD 0 + 1)

/-- What is lost of the text of a member. -/
def lostOfText (text : List Char) : List Char :=
  if (trim text).head? == some '(' then
    match methodParts? (trim text) with
    | some (_, code) => strays .body code ++ behindMethod (trim text)
    | none => []
  else []

/-- What stands in a line after the quote that ends the member whose head is in `line`. -/
def behindQuote (line : List Char) (rest : List (List Char)) : List Char :=
  match wordHead? line with
  | some (_, tail) =>
    let text := unlines (tail :: rest)
    match quoteAt? text with
    | some n => (text.drop (n + 1)).takeWhile (· != '\n')
    | none => []
  | none => []

/-- What is lost of lines, of which the first `skip` belong to a member that was found already. -/
def lostIn (skip : Nat) : List (List Char) → List Char
  | [] => []
  | line :: rest =>
    match skip with
    | k + 1 => lostIn k rest
    | 0 =>
      match member? line rest with
      | some (_, text, n) => lostOfText text ++ behindQuote line rest ++ lostIn n rest
      | none => lostIn 0 rest

/-- What is lost of a text when it is laid out. -/
def lost (content : List Char) : List Char := lostIn 0 (lines content)

theorem lostIn_drop (k : Nat) (ls : List (List Char)) : lostIn k ls = lostIn 0 (ls.drop k) := by
  induction ls generalizing k with
  | nil => simp [lostIn]
  | cons l r ih =>
    cases k with
    | zero => rfl
    | succ k => rw [lostIn, ih, List.drop_succ_cons]

/-! ## Methods -/

theorem behindMethod_eq {p g q z : List Char} (hg : AllBlank g) (hp : Balanced '(' ')' p)
    (hq : Balanced '\x7b' '\x7d' q) :
    behindMethod ('(' :: p ++ ')' :: (g ++ '\x7b' :: q ++ '\x7d' :: z)) = trimRight z := by
  have hclose : closingAt? '(' ')' 0 ('(' :: p ++ ')' :: (g ++ '\x7b' :: q ++ '\x7d' :: z)) =
      some (p.length + 1) :=
    (closingAt?_cons_eq_some_iff (by decide)).2 ⟨p, _, rfl, rfl, hp⟩
  have hbrace :
      closingAt? '\x7b' '\x7d' 0 ('\x7b' :: q ++ '\x7d' :: trimRight z) = some (q.length + 1) :=
    (closingAt?_cons_eq_some_iff (by decide)).2 ⟨q, _, rfl, rfl, hq⟩
  rw [behindMethod, hclose, Option.getD_some, drop_parens, trim_braces hg]
  simp only [hbrace, Option.getD_some]
  simp

/-- Of the text of a member the strays of its code and what is behind its last brace are left
out. -/
theorem leavesOut_memberText (text : List Char) :
    LeavesOut (inked (memberText text)) (inked (lostOfText text)) (inked text) := by
  rw [memberText, lostOfText]
  split
  · cases hparts : methodParts? (trim text) with
    | none =>
      rw [methodBody, hparts]
      simp only [inked_trim]
      exact leavesOut_nothing _
    | some parts =>
      obtain ⟨params, code⟩ := parts
      obtain ⟨p, g, q, z, hbody, hg, hp, hq, rfl, rfl⟩ := methodParts?_eq_some_iff.1 hparts
      have hcode := leavesOut_lexemes .body (trim q)
      rw [inked_trim] at hcode
      have hhead : ∀ a b : List Char, inked ('(' :: a ++ ')' :: (b ++ ['\x7b'])) =
          inked ['('] ++ inked a ++ inked [')'] ++ inked b ++ inked ['\x7b'] := by
        intro a b
        simp only [← inked_append]
        simp
      have hwhole :
          inked text = inked ('(' :: p ++ ')' :: (g ++ ['\x7b'])) ++ inked q ++
            inked ['\x7d'] ++ inked z := by
        rw [← inked_trim text, hbody, ← inked_append, ← inked_append, ← inked_append]
        simp
      have hkept : inked (methodBody text) = inked ('(' :: p ++ ')' :: (g ++ ['\x7b'])) ++
          (lexemes .body (trim q)).flatMap (inked ·.2) ++ inked ['\x7d'] ++ [] := by
        have hsplit :
            methodBody text =
              '(' :: trim p ++ ')' :: ([' '] ++ ['\x7b']) ++ innerText (trim q) ++ ['\x7d'] := by
          rw [methodBody_eq hparts]
          simp
        rw [hsplit, inked_append, inked_append, hhead, hhead, inked_innerText, inked_statements,
          inked_trim, hg.inked_eq_nil, show inked [' '] = [] by decide]
        simp only [List.append_nil]
      have hlost : inked (strays .body (trim q) ++ behindMethod (trim text)) =
          inked (strays .body (trim q)) ++ inked z := by
        rw [hbody, behindMethod_eq hg hp hq, inked_append, inked_trimRight]
      show LeavesOut (inked (methodBody text))
          (inked (strays .body (trim q) ++ behindMethod (trim text))) (inked text)
      rw [hkept, hwhole, hlost]
      have hjoined :=
        (((leavesOut_nothing (inked ('(' :: p ++ ')' :: (g ++ ['\x7b'])))).append hcode).append
        (leavesOut_nothing (inked ['\x7d']))).append (leavesOut_all (inked z))
      simpa only [List.append_nil, List.nil_append] using hjoined
  · exact leavesOut_nothing _

/-! ## Lines -/

theorem behindQuote_member {line name text post : List Char} {more : List (List Char)}
    (h : MemberOf line more name text post) (rest : List (List Char)) :
    behindQuote line (more ++ rest) = post := by
  obtain ⟨⟨pre, gap, tail, hhead, hlines⟩, hpost, hs⟩ := h
  have htake :
      ∀ {x : List Char}, (∀ c ∈ x.head?, c = '\n') → (post ++ x).takeWhile (· != '\n') = post := by
    intro x hx
    exact takeWhile_append_of_head (fun c hc => by simpa using ne_of_mem_of_not_mem hc hpost)
      fun c hc => by simp [hx c hc]
  obtain ⟨x, hx, hwhole⟩ : ∃ x : List Char, (∀ c ∈ x.head?, c = '\n') ∧
      unlines (tail :: (more ++ rest)) = text ++ '"' :: (post ++ x) := by
    by_cases hrest : rest = []
    · exact ⟨[], by simp, by rw [hrest, List.append_nil, ← hlines, unlines_lines, List.append_nil]⟩
    · refine ⟨'\n' :: unlines rest, by simp, ?_⟩
      rw [← List.cons_append, ← hlines, unlines_append (lines_ne_nil _) hrest, unlines_lines]
      simp
  rw [behindQuote, wordHead?_eq_some_iff.2 ⟨pre, gap, hhead⟩]
  have hdrop : (text ++ '"' :: (post ++ x)).drop (text.length + 1) = post ++ x := by simp
  simp only [hwhole, quoteAt?_append hs, hdrop, htake hx]

theorem inked_plainLine (last : Option (List Char)) (line : List Char) :
    (plainLine last line).flatMap inked = inked line := by
  rcases plainLine_eq last line with ⟨hout, htrim⟩ | ⟨o, hout⟩
  · rw [hout, ← inked_trim, htrim]
    rfl
  · have ho : o ∈ plainLine last line := by simp [hout]
    rw [hout, List.flatMap_singleton, ← inked_trim, trim_of_mem_plainLine ho, inked_trim]

/-- What the lines of a member hold, blanks apart. -/
theorem inked_member {line name text post : List Char} {more : List (List Char)}
    (h : MemberOf line more name text post) :
    (line :: more).flatMap inked = (inked name ++ ['"']) ++ inked text ++ ['"'] ++ inked post := by
  obtain ⟨pre, gap, tail, hhead, hlines⟩ := h.head
  have htext : inked tail ++ more.flatMap inked = inked text ++ ['"'] ++ inked post := by
    rw [← List.flatMap_cons, ← hlines, ← inked_unlines, unlines_lines, inked_append, inked_cons,
      ← List.append_assoc]
    rfl
  rw [List.flatMap_cons, hhead.line_eq, inked_append, inked_append, inked_append,
    inked_cons '"' tail, hhead.pre_blank.inked_eq_nil, hhead.gap_blank.inked_eq_nil,
    show inked ['"'] = ['"'] by decide, List.nil_append, List.nil_append]
  simp only [List.append_assoc] at htext ⊢
  rw [htext]

/-- Of lines the text that `lostIn` collects is left out. -/
theorem leavesOut_pluginLines (ls : List (List Char)) (hls : ∀ l ∈ ls, '\n' ∉ l)
    (last : Option (List Char)) :
    LeavesOut ((pluginLines 0 last ls).flatMap inked) (inked (lostIn 0 ls)) (ls.flatMap inked) := by
  refine lines_induction (motive := fun ls =>
      ∀ last, LeavesOut ((pluginLines 0 last ls).flatMap inked) (inked (lostIn 0 ls))
        (ls.flatMap inked))
    (fun _ => leavesOut_nothing []) (fun {line more name text post rest} hmember ih last => ?_)
    (fun {line rest} hmem _ ih last => ?_) ls hls last
  · have hlost : lostIn 0 (line :: (more ++ rest)) = lostOfText text ++ post ++ lostIn 0 rest := by
      rw [lostIn, hmember.member?_eq]
      simp only
      rw [lostIn_drop, List.drop_left, behindQuote_member hmember]
    have hkept :
        inked (memberLine name text) =
          (inked name ++ ['"']) ++ inked (memberText text) ++ ['"'] ++ [] := by
      simp only [memberLine, inked_append, show inked indentation = [] by
        decide, show inked [' ', '"'] = ['"'] by
          decide, show inked ['"'] = ['"'] by decide, List.nil_append, List.append_nil]
    rw [pluginLines_member hmember, List.flatMap_cons, hlost, ← List.cons_append,
      List.flatMap_append, inked_member hmember, hkept, inked_append, inked_append]
    have hjoined :=
      ((((leavesOut_nothing (inked name ++ ['"'])).append (leavesOut_memberText text)).append
      (leavesOut_nothing ['"'])).append (leavesOut_all (inked post))).append
        (ih (some (memberLine name text)))
    simpa only [List.append_nil, List.nil_append] using hjoined
  · have hlost : lostIn 0 (line :: rest) = lostIn 0 rest := by rw [lostIn, hmem]
    rw [pluginLines_plain hmem, List.flatMap_append, inked_plainLine, hlost, List.flatMap_cons]
    exact (leavesOut_nothing (inked line)).append (ih _)

theorem inked_ended (ls : List (List Char)) : inked (unlines (ended ls)) = ls.flatMap inked := by
  rw [inked_unlines, ended]
  split
  · rfl
  · simp

/-- A plugin that is laid out has the characters of the plugin in their order, blanks apart and less
what is lost; it has all of them exactly if nothing but blanks is lost. -/
theorem inked_plugin_eq_iff (content : List Char) :
    LeavesOut (inked (plugin content)) (inked (lost content)) (inked content) ∧
      (inked (plugin content) = inked content ↔ AllBlank (lost content)) := by
  have hls : ∀ l ∈ lines content, '\n' ∉ l := fun l hl => newline_not_mem_of_mem_lines hl
  have hout : LeavesOut (inked (plugin content)) (inked (lost content)) (inked content) := by
    have h := leavesOut_pluginLines (lines content) hls none
    rw [← inked_unlines (lines content), unlines_lines, ← inked_ended] at h
    exact h
  exact ⟨hout, hout.eq_iff.trans inked_eq_nil_iff⟩

/-- A note behind a member is lost. -/
theorem inked_plugin_trailing_note :
    inked (plugin "\x7b\nA \"x\" // note\n\x7d".toList) ≠
      inked "\x7b\nA \"x\" // note\n\x7d".toList ∧
    lost "\x7b\nA \"x\" // note\n\x7d".toList = " // note".toList := by
  decide +kernel

end Partitura.Layout
