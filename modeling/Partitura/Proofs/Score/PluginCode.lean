import Partitura.Proofs.ManuScript.Wording
import Partitura.Proofs.Score.PluginText

/-!
# The import plugin as code

The code of the plugin is a script, so nothing in it is a syntax error (`checkBody_runCode`). Every
argument is a single token, also a text of the score: its escapes keep the string from ending early,
unless there is a line feed in it. Every sentence is a statement of the grammar, and every passage a
script.
-/

namespace Partitura.Score.ImportPlugin

open ManuScript ManuScript.Grammar ManuScript.Lexer
open Number (Binary64)

/-! ## Arguments -/

/-- Whether a text is a plain decimal: digits with one point among them, which is not the first
character. -/
def isPlainDecimal (s : String) : Bool :=
  s.toList.head?.any Char.isDigit && s.toList.all (fun c => c.isDigit || c == '.') &&
    s.toList.count '.' == 1

theorem isNumberChar_of_isDigit {c : Char} (h : c.isDigit = true) : isNumberChar c = true := by
  rw [isNumberChar, Text.isDigit_of_ascii h, Bool.true_or]

theorem spelled_toString (n : Int) : Spelled .number (toString n).toList := by
  obtain ⟨m, hm⟩ := Number.exists_toDigits n
  have hdigits : ∀ c ∈ Nat.toDigits 10 m, c.isDigit = true :=
    fun c hc => Nat.isDigit_of_mem_toDigits (by decide) (by decide) hc
  obtain ⟨d, ds, hds⟩ := List.exists_cons_of_ne_nil (Nat.toDigits_ne_nil (n := m) (b := 10))
  rw [hds] at hm hdigits
  have hd := Text.isDigit_of_ascii (hdigits d List.mem_cons_self)
  have hnumber : ∀ c ∈ d :: ds, isNumberChar c = true :=
    fun c hc => isNumberChar_of_isDigit (hdigits c hc)
  -- a minus right before a digit belongs to the number
  rcases hm with hm | hm <;> rw [hm]
  · exact .number (.inl hd) fun c hc => hnumber c (List.mem_cons_of_mem _ hc)
  · exact .number (.inr ⟨rfl, hd⟩) hnumber

theorem spelled_of_isPlainDecimal {s : String} (h : isPlainDecimal s = true) :
    Spelled .number s.toList := by
  simp only [isPlainDecimal, Bool.and_eq_true, List.all_eq_true, Bool.or_eq_true, beq_iff_eq] at h
  obtain ⟨⟨hhead, hall⟩, -⟩ := h
  cases hs : s.toList with
  | nil => rw [hs] at hhead; cases hhead
  | cons c r =>
    rw [hs] at hhead hall
    refine .number (.inl (Text.isDigit_of_ascii hhead)) fun x hx => ?_
    rcases hall x (List.mem_cons_of_mem _ hx) with hdigit | rfl
    · exact isNumberChar_of_isDigit hdigit
    · rfl

theorem stringRest_escapeChar {c : Char} (hc : c ≠ '\n') (r : List Char) :
    stringRest true '\'' (escapeChar c ++ r) =
      (escapeChar c ++ (stringRest true '\'' r).1, (stringRest true '\'' r).2) := by
  rw [escapeChar]
  split
  · rfl
  · next hplain =>
    simp only [Bool.or_eq_true, beq_iff_eq, not_or] at hplain
    rw [List.singleton_append, stringRest_cons hplain.1, if_neg (by simpa using hplain.2),
      if_neg (by simpa using hc)]
    rfl

/-- The escapes of a text keep the string from ending early. -/
theorem stringRest_escaped {cs : List Char} (h : '\n' ∉ cs) :
    stringRest true '\'' (cs.flatMap escapeChar ++ ['\'']) =
      (cs.flatMap escapeChar ++ ['\''], true) := by
  induction cs with
  | nil => rfl
  | cons c cs ih =>
    rw [List.mem_cons, not_or] at h
    rw [List.flatMap_cons, List.append_assoc, stringRest_escapeChar (Ne.symm h.1), ih h.2]

theorem spelled_literal {t : String} (h : '\n' ∉ t.toList) :
    Spelled .string (literal t).toList := by
  have hliteral : (literal t).toList = '\'' :: (t.toList.flatMap escapeChar ++ ['\'']) := by
    simp [literal, quoted, escape]
  rw [hliteral]
  exact .string (.inl rfl) (stringRest_escaped h)

theorem wording_literal {t : String} (h : '\n' ∉ t.toList) : Wording .chain (literal t) :=
  wording_atom (says_spelled (spelled_literal h) (by decide)) (by decide)

theorem wording_quoted {w : String} (h : Plain w) : Wording .chain (quoted w) :=
  literal_of_plain h ▸ wording_literal (h.not_mem newline_mem_outer)

theorem wording_number (n : Int) : Wording .chain (toString n) :=
  wording_atom (says_spelled (spelled_toString n) (by decide)) (by decide)

theorem wording_count (n : Nat) : Wording .chain (toString n) := wording_number n

/-- How the fixed parts of the code are read. -/
structure Vocabulary : Prop where
  words : ∀ w ∈ words, ∃ k ∈ atoms, Says w [k]
  methods : ∀ m ∈ methods, Says m (path 1)
  fetches : ∀ p ∈ fetches, Says p.1 (path 0) ∧ ∃ n ∈ [1, 2], Says p.2 (path n)
  members : ∀ m ∈ members, Says m (path 1)
  staffMembers : ∀ m ∈ staffMembers, Says m [.identifier]
  -- names
  score : Says "score" (path 0)
  activeScore : Says "Sibelius.ActiveScore" (path 1)
  existingCount : Says "existingCount" (path 0)
  barsNeeded : Says "barsNeeded" (path 0)
  barCount : Says "score.SystemStaff.BarCount" (path 2)
  addBars : Says "score.AddBars" (path 1)
  staves : Says "staves" (path 0)
  createSparseArray : Says "CreateSparseArray" (path 0)
  idx : Says "idx" (path 0)
  staffNum : Says "staffNum" (path 0)
  s : Says "s" (path 0)
  st : Says "st" (path 0)
  docSetup : Says "docSetup" (path 0)
  documentSetup : Says "score.DocumentSetup" (path 1)
  messageBox : Says "Sibelius.MessageBox" (path 1)
  updateProgressDialog : Says "Sibelius.UpdateProgressDialog" (path 1)
  -- lines that open or close a block, or leave the code
  ifNoScore :
      Says "if (null = score) \x7b" [.kwIf, .lparen, .kwNull, .assign, .identifier,
        .rparen, .lbrace]
  ifNoStaff :
      Says "if (st = null) \x7b" [.kwIf, .lparen, .identifier, .assign, .kwNull, .rparen, .lbrace]
  ifNote :
      Says "if (nr != null) \x7b" [.kwIf, .lparen, .identifier, .neq, .kwNull, .rparen, .lbrace]
  ifBarsNeeded :
      Says "if (barsNeeded > 0) \x7b" [.kwIf, .lparen, .identifier, .gt, .number, .rparen, .lbrace]
  ifNewStaff :
      Says "\tif (staffNum >= existingCount) \x7b" [.kwIf, .lparen, .identifier, .gte, .identifier,
        .rparen, .lbrace]
  forEachStaff :
      Says "for each s in score \x7b" [.kwFor, .kwEach, .identifier, .kwIn, .identifier, .lbrace]
  closed : Says "\x7d" [.rbrace]
  closedInside : Says "\t\x7d" [.rbrace]
  returnFalse : Says "\treturn False;" [.kwReturn, .kwFalse, .semicolon]
  returnTrue : Says "return True;" [.kwReturn, .kwTrue, .semicolon]

/-- Every name is read as a path or as a single word, and every fixed line as the tokens of its head
or of its end. -/
theorem vocabulary : Vocabulary := by constructor <;> decide +kernel

/-- A call with these arguments, as a statement. -/
theorem wording_call {m : String} {as : List String} (hm : Wording .chain m)
    (has : ∀ a ∈ as, Wording .chain a) : Wording .statement (call m as) := by
  have htext : m ++ ("(" ++ (Text.join ", " as ++ ")")) ++ ";" = call m as :=
    String.toList_injective (by simp [call])
  exact htext ▸ ((hm.call fun a ha => (has a ha).link (by decide)).link (by decide)).ended

/-- A call whose result is kept, as a statement. -/
theorem wording_fetch {x m : String} {as : List String} (hx : Wording .chain x)
    (hm : Wording .chain m) (has : ∀ a ∈ as, Wording .chain a) :
    Wording .statement (call (x ++ " = " ++ m) as) := by
  have htext :
      x ++ " = " ++ (m ++ ("(" ++ (Text.join ", " as ++ ")"))) ++ ";" = call (x ++ " = " ++ m) as :=
    String.toList_injective (by simp [call])
  exact htext ▸ hx.assignment ((hm.call fun a ha => (has a ha).link (by decide)).link (by decide))

section

variable {ts : List String} {xs : List Binary64} (ht : ∀ t ∈ ts, '\n' ∉ t.toList)
  (hx : ∀ x ∈ xs, isPlainDecimal x.render = true)
include ht hx

theorem Argument.wording {a : String} (ha : Argument ts xs a) : Wording .chain a := by
  cases ha with
  | number n => exact wording_number n
  | word hw =>
    obtain ⟨k, hk, hsays⟩ := (vocabulary).words a hw
    exact wording_atom hsays hk
  | quoted hw => exact wording_quoted hw
  | text h => exact wording_literal (ht _ h)
  | size h =>
    exact wording_atom (says_spelled (spelled_of_isPlainDecimal (hx _ h)) (by decide)) (by decide)

/-! ## Sentences -/

theorem Sentence.wording {l : String} (hl : Sentence ts xs l) : Wording .statement l := by
  induction hl with
  | call hm has =>
    exact wording_call (wording_path 1 ((vocabulary).methods _ hm)) fun a ha =>
      (has a ha).wording ht hx
  | fetch hm has =>
    obtain ⟨hx', n, -, hm'⟩ := (vocabulary).fetches _ hm
    exact wording_fetch (wording_path 0 hx') (wording_path n hm') fun a ha =>
      (has a ha).wording ht hx
  | set hm ha =>
    exact (wording_path 1 ((vocabulary).members _ hm)).assignment
      ((ha.wording ht hx).link (by decide))
  | @setStaff m a i hm ha =>
    have hstaff : Wording .chain ("staves" ++ ("[" ++ (toString i ++ ("]" ++ ("." ++ m))))) :=
      (wording_path 0 (vocabulary).staves).indexMember ((wording_count i).link (by decide))
        ((vocabulary).staffMembers m hm)
    -- the index ends in a bracket, so the point behind it is no part of a number
    have htext : "staves" ++ ("[" ++ (toString i ++ ("]" ++ ("." ++ m)))) ++ " = " ++ a ++ ";" =
        "staves[" ++ toString i ++ "]." ++ m ++ " = " ++ a ++ ";" :=
      String.toList_injective (by simp)
    exact htext ▸ hstaff.assignment ((ha.wording ht hx).link (by decide))
  | indented _ ih => exact ih.tab

end

/-! ## Blocks -/

theorem wording_set {x a : String} (hx : Says x (path 0)) (ha : Wording .chain a) :
    Wording .statement (x ++ " = " ++ a ++ ";") :=
  (wording_path 0 hx).assignment (ha.link (by decide))

theorem wording_return {s : String} {k : Kind} (hk : k ∈ atoms)
    (h : Says s [.kwReturn, k, .semicolon]) : Wording .statement s :=
  ⟨_, h, ((Fits.atom hk).link (by decide)).returnValue⟩

/-- A variable is set to the result of an operation. -/
theorem wording_compute {x a o b : String} {k : Kind} (hx : Says x (path 0)) (ha : Wording .chain a)
    (ho : Says o [k]) (hk : k ∈ operators 3) (hb : Wording .chain b) :
    Wording .statement (x ++ " = " ++ (a ++ (" " ++ o ++ (" " ++ b))) ++ ";") :=
  (wording_path 0 hx).assignment ((ha.link (by decide)).operation ho hk (hb.link (by decide)))

/-- A variable counts one more. -/
theorem wording_increase {x : String} (hx : Says x (path 0)) :
    Wording .statement (x ++ " = " ++ (x ++ (" " ++ "+" ++ (" " ++ "1"))) ++ ";") :=
  wording_compute (k := .plus) hx (wording_path 0 hx) (says_mark rfl rfl (by decide)) (by decide)
    (wording_count 1)

/-- If two operands are equal, the user is told so and the code is left. -/
theorem listing_refusal {head w : String} {a b : Kind} (ha : a ∈ atoms) (hb : b ∈ atoms)
    (hhead : Says head [.kwIf, .lparen, a, .assign, b, .rparen, .lbrace]) (hw : Plain w) :
    Listing (Fits .statement)
    [head, "\t" ++ call "Sibelius.MessageBox" [quoted w], "\treturn False;", "\x7d"] := by
  have hmessage : Wording .statement ("\t" ++ call "Sibelius.MessageBox" [quoted w]) :=
    (wording_call (wording_path 1 (vocabulary).messageBox)
      (List.forall_mem_singleton.2 (wording_quoted hw))).tab
  have hreturn : Wording .statement "\treturn False;" :=
    wording_return (k := .kwFalse) (by decide) (vocabulary).returnFalse
  exact .ifThen ha (by decide) hb hhead
    (hmessage.line.nextStatement (hreturn.line.nextStatement .noStatement)) (vocabulary).closed

theorem listing_entering : Listing Script enteringLines := by
  have hscore : Wording .statement ("score" ++ " = " ++ "Sibelius.ActiveScore" ++ ";") :=
    wording_set (vocabulary).score (wording_path 1 (vocabulary).activeScore)
  have hnone :
      Listing (Fits .statement) ["if (null = score) \x7b", "\t" ++ call "Sibelius.MessageBox"
      [quoted "No score open. Create a blank score first."], "\treturn False;", "\x7d"] :=
    listing_refusal (by decide) (by decide) (vocabulary).ifNoScore (by decide)
  have hzero : Wording .statement ("existingCount" ++ " = " ++ toString 0 ++ ";") :=
    wording_set (vocabulary).existingCount (wording_count 0)
  have hone :
      Wording .statement
        ("\t" ++
          ("existingCount" ++ " = " ++ ("existingCount" ++ (" " ++ "+" ++ (" " ++ "1"))) ++ ";")) :=
    (wording_increase (vocabulary).existingCount).tab
  have hloop :
      Listing (Fits .statement)
        ["for each s in score \x7b", "\texistingCount = existingCount + 1;", "\x7d"] :=
    .forEach (vocabulary).forEachStaff (hone.line.nextStatement .noStatement) (vocabulary).closed
  exact hscore.line.script.follow
    (hnone.script.follow (.follow .blank (hzero.line.script.follow (hloop.script.follow .blank))))

theorem listing_missingBars (n : Nat) : Listing Script (missingBarLines n) := by
  have hremark : Listing Script ["// Ensure we have " ++ toString n ++ " bars"] :=
    .remark (by simp) (by simp)
  have hneeded :
      Wording .statement ("barsNeeded = " ++ toString n ++ " - score.SystemStaff.BarCount;") := by
    have htext :
        "barsNeeded" ++ " = " ++
          (toString n ++ (" " ++ "-" ++ (" " ++ "score.SystemStaff.BarCount"))) ++ ";" =
        "barsNeeded = " ++ toString n ++ " - score.SystemStaff.BarCount;" :=
      String.toList_injective (by simp)
    exact htext ▸
      wording_compute (k := .minus) (vocabulary).barsNeeded (wording_count n)
        (says_mark rfl rfl (by decide)) (by decide)
      (wording_path 2 (vocabulary).barCount)
  have hadd : Wording .statement ("\t" ++ call "score.AddBars" ["barsNeeded"]) :=
    (wording_call (wording_path 1 (vocabulary).addBars)
      (List.forall_mem_singleton.2 (wording_path 0 (vocabulary).barsNeeded))).tab
  have hmissing :
      Listing (Fits .statement)
        ["if (barsNeeded > 0) \x7b", "\tscore.AddBars(barsNeeded);", "\x7d"] :=
    .ifThen (by decide) (by decide) (by decide) (vocabulary).ifBarsNeeded
      (hadd.line.nextStatement .noStatement) (vocabulary).closed
  exact hremark.follow (hneeded.line.script.follow (hmissing.script.follow .blank))

theorem listing_collecting : Listing Script collectingLines := by
  have hstaves : Wording .statement (call ("staves" ++ " = " ++ "CreateSparseArray") []) :=
    wording_fetch (wording_path 0 (vocabulary).staves)
      (wording_path 0 (vocabulary).createSparseArray) (List.forall_mem_nil _)
  have hidx : Wording .statement ("idx" ++ " = " ++ toString 0 ++ ";") :=
    wording_set (vocabulary).idx (wording_count 0)
  have hstaffNum : Wording .statement ("staffNum" ++ " = " ++ toString 0 ++ ";") :=
    wording_set (vocabulary).staffNum (wording_count 0)
  have hkeep :
      Wording .statement
        ("\t" ++ ("\t" ++ ("staves" ++ ("[" ++ ("idx" ++ "]")) ++ " = " ++ "s" ++ ";"))) :=
    (((wording_path 0 (vocabulary).staves).index
      ((wording_path 0 (vocabulary).idx).link (by decide))).assignment
      ((wording_path 0 (vocabulary).s).link (by decide))).tab.tab
  have hnext :
      Wording .statement
        ("\t" ++ ("\t" ++ ("idx" ++ " = " ++ ("idx" ++ (" " ++ "+" ++ (" " ++ "1"))) ++ ";"))) :=
    (wording_increase (vocabulary).idx).tab.tab
  have hcount :
      Wording .statement
        ("\t" ++ ("staffNum" ++ " = " ++ ("staffNum" ++ (" " ++ "+" ++ (" " ++ "1"))) ++ ";")) :=
    (wording_increase (vocabulary).staffNum).tab
  have hnew :
      Listing (Fits .statement) ["\tif (staffNum >= existingCount) \x7b", "\t\tstaves[idx] = s;",
        "\t\tidx = idx + 1;", "\t\x7d"] :=
    .ifThen (by decide) (by decide) (by decide) (vocabulary).ifNewStaff
      (hkeep.line.nextStatement (hnext.line.nextStatement .noStatement)) (vocabulary).closedInside
  have hloop :
      Listing (Fits .statement) ["for each s in score \x7b",
        "\tif (staffNum >= existingCount) \x7b", "\t\tstaves[idx] = s;",
      "\t\tidx = idx + 1;", "\t\x7d", "\tstaffNum = staffNum + 1;", "\x7d"] :=
    .forEach (vocabulary).forEachStaff (hnew.nextStatement (hcount.line.nextStatement .noStatement))
      (vocabulary).closed
  exact hstaves.line.script.follow
    (hidx.line.script.follow (hstaffNum.line.script.follow (hloop.script.follow .blank)))

theorem listing_finding {s : Staff} (hs : '\n' ∉ s.instrument.toList) (total index : Nat) :
    Listing Script (findingLines total index s) := by
  have hprogress :
      Wording .statement (call "Sibelius.UpdateProgressDialog" [toString (index * 100 / total),
      quoted ("Staff " ++ toString (index + 1) ++ " of " ++ toString total ++ "...")]) := by
    have hplain :
        Plain ("Staff " ++ toString (index + 1) ++ " of " ++ toString total ++ "...") := by
      simp only [plain_append]
      exact ⟨⟨⟨⟨by decide, plain_count _⟩, by decide⟩, plain_count _⟩, by decide⟩
    refine wording_call (wording_path 1 (vocabulary).updateProgressDialog) ?_
    exact List.forall_mem_cons.2
      ⟨wording_count _, List.forall_mem_singleton.2 (wording_quoted hplain)⟩
  have hremark :
      Listing Script
        ["// Staff " ++ toString (index + 1) ++ ": " ++ orElse s.instrument "unnamed"] := by
    have hname : '\n' ∉ (orElse s.instrument "unnamed").toList := by
      rw [orElse, nonempty?]
      split
      · decide
      · exact hs
    exact .remark (by simp) (by simp [hname])
  have hstaff : Wording .statement ("st = staves[" ++ toString index ++ "];") := by
    have htext : "st" ++ " = " ++ ("staves" ++ ("[" ++ (toString index ++ "]"))) ++ ";" =
        "st = staves[" ++ toString index ++ "];" :=
      String.toList_injective (by simp)
    exact htext ▸
      wording_set (vocabulary).st
        ((wording_path 0 (vocabulary).staves).index ((wording_count index).link (by decide)))
  have hnone : Listing (Fits .statement) ["if (st = null) \x7b", "\t" ++ call "Sibelius.MessageBox"
      [quoted ("Staff " ++ toString index ++ " is null")], "\treturn False;", "\x7d"] := by
    have hplain : Plain ("Staff " ++ toString index ++ " is null") := by
      simp only [plain_append]
      exact ⟨⟨by decide, plain_count _⟩, by decide⟩
    exact listing_refusal (by decide) (by decide) (vocabulary).ifNoStaff hplain
  exact hprogress.line.script.follow (hremark.follow (hstaff.line.script.follow hnone.script))

/-! ## The code -/

/-- A passage is a script, if no text of the score has a line feed and all sizes are plain
decimals. -/
theorem Passage.listing {ts : List String} {xs : List Binary64} (ht : ∀ t ∈ ts, '\n' ∉ t.toList)
    (hx : ∀ x ∈ xs, isPlainDecimal x.render = true) {ls : List String} (h : Passage ts xs ls) :
    Listing Script ls := by
  induction h with
  | nil => exact .empty
  | append _ _ ih ih' => exact ih.follow ih'
  | blank => exact .blank
  | remark hl hplain => exact .remark hl (hplain.not_mem newline_mem_outer)
  | sentence hl => exact (hl.wording ht hx).line.script
  | adorned hls =>
    have hlines := Wording.lines fun l hl => (hls l hl).wording ht hx
    exact (hlines.ifThen (by decide) (by decide) (by decide) (vocabulary).ifNote
      (vocabulary).closed).script
  | entering => exact listing_entering
  | missingBars n => exact listing_missingBars n
  | collecting => exact listing_collecting
  | setup =>
    have hsetup : Wording .statement ("docSetup" ++ " = " ++ "score.DocumentSetup" ++ ";") :=
      wording_set (vocabulary).docSetup (wording_path 1 (vocabulary).documentSetup)
    exact hsetup.line.script
  | finding total index hs => exact listing_finding (ht _ hs) total index
  | leaving =>
    have hreturn : Wording .statement "return True;" :=
      wording_return (k := .kwTrue) (by decide) (vocabulary).returnTrue
    exact hreturn.line.script

theorem body_eq_unlines (ls : List String) :
    body ls = Text.unlines ((ls ++ [""]).map String.toList) := by
  rw [List.map_append, Text.unlines_append_eq _ (by simp), body]
  exact (List.append_nil _).symm

/-- **The code of the import plugin has no syntax errors.** If all notes stand at finite offsets, no
text has a line feed and the positive sizes of the page are written as plain decimals, the plugin is
written, and what stands in it between the line that opens the method `Run` and the brace that
closes it is checked without an error, whatever surroundings it is checked in. -/
theorem checkBody_runCode {s : Score} (hplaced : s.isPlaced = true)
    (htexts : ∀ t ∈ s.texts, '\n' ∉ t.toList)
    (hsizes : ∀ x ∈ s.layout.sizes, isPlainDecimal x.render = true) :
    ∃ run, source s = .ok (String.ofList (heading ++ (run ++ footing))) ∧
      ∀ env p, ∀ d ∈ checkBody env p (String.ofList run), Text.hasStart d.code "MS-E" = false := by
  obtain ⟨ls, hls, hpassage⟩ := writes_code hplaced
  refine ⟨body ls, source_eq hls, fun env p => ?_⟩
  rw [body_eq_unlines]
  exact ((hpassage.listing htexts hsizes).follow .blank).checkBody env p

theorem checkBody_runCode_chanson :
    chanson.isPlaced = true ∧ (∀ t ∈ chanson.texts, '\n' ∉ t.toList) ∧
      (∀ x ∈ chanson.layout.sizes, isPlainDecimal x.render = true) ∧
      ∃ run, source chanson = .ok (String.ofList (heading ++ (run ++ footing))) ∧
        ∀ env p, ∀ d ∈ checkBody env p (String.ofList run),
          Text.hasStart d.code "MS-E" = false := by
  have hplaced : chanson.isPlaced = true := by decide
  have htexts : ∀ t ∈ chanson.texts, '\n' ∉ t.toList := by decide
  have hsizes : ∀ x ∈ chanson.layout.sizes, isPlainDecimal x.render = true := by decide +kernel
  exact ⟨hplaced, htexts, hsizes, checkBody_runCode hplaced htexts hsizes⟩

end Partitura.Score.ImportPlugin
