import Partitura.Proofs.ManuScript.Sheets
import Partitura.Proofs.Score.PluginLines
import Partitura.Proofs.Text.Lines

/-!
# The import plugin as a plugin file

The plugin is a plugin file with two entries, if nothing in its code ends the entry that the code
stands in. That would be a double quote, which no line has but in the texts of the score
(`Passage.not_mem`): these are escaped, but not for double quotes.
-/

namespace Partitura.Score.ImportPlugin

open ManuScript
open Number (Binary64)

variable {ls : List String}

/-! ## Characters that stand in texts only -/

/-- The characters that no line of the code has but in the texts of the score. -/
def outer : List Char := ['"', '\n']

@[simp] theorem quote_mem_outer : '"' ∈ outer := by decide

@[simp] theorem newline_mem_outer : '\n' ∈ outer := by decide

theorem eq_of_mem_outer {c : Char} (hc : c ∈ outer) : c = '"' ∨ c = '\n' := by
  simpa [outer] using hc

@[simp] theorem mem_literal {c : Char} (hc : c ∈ outer) {s : String} :
    c ∈ (literal s).toList ↔ c ∈ s.toList := by
  have hescape : c ∈ (escape s).toList ↔ c ∈ s.toList := by
    have hne : c ≠ '\\' := by rcases eq_of_mem_outer hc with rfl | rfl <;> decide
    rw [escape, String.toList_ofList, List.mem_flatMap]
    constructor
    · rintro ⟨x, hx, h⟩
      rw [escapeChar] at h
      split at h <;> simp_all
    · intro h
      exact ⟨c, h, by rw [escapeChar]; split <;> simp⟩
  rcases eq_of_mem_outer hc with rfl | rfl <;> simp [literal, quoted, hescape]

@[simp] theorem mem_call {c : Char} (hc : c ∈ outer) {t : String} {as : List String} :
    c ∈ (call t as).toList ↔ c ∈ t.toList ∨ ∃ a ∈ as, c ∈ a.toList := by
  rcases eq_of_mem_outer hc with rfl | rfl <;> simp [call, Text.join, Text.mem_intercalate]

theorem not_mem_of_isNumeral {c : Char} (hc : c ∈ outer) {cs : List Char}
    (h : ∀ x ∈ cs, Number.isNumeral x = true) : c ∉ cs := by
  have hnumeral : Number.isNumeral c = false := by
    rcases eq_of_mem_outer hc with rfl | rfl <;> decide
  intro hmem
  rw [h c hmem] at hnumeral
  cases hnumeral

@[simp] theorem not_mem_toDigits {c : Char} (hc : c ∈ outer) (n : Nat) : c ∉ Nat.toDigits 10 n :=
  not_mem_of_isNumeral hc fun _ hx => Number.isNumeral_of_mem_toDigits hx

theorem Plain.not_mem {c : Char} (hc : c ∈ outer) {w : String} (h : Plain w) : c ∉ w.toList := by
  intro hmem
  have := h c hmem
  rcases eq_of_mem_outer hc with rfl | rfl <;> simp at this

/-- The fixed parts of sentences need no escapes. -/
theorem plain_parts : (∀ w ∈ words, Plain w) ∧ (∀ m ∈ methods, Plain m) ∧
    (∀ p ∈ fetches, Plain (p.1 ++ " = " ++ p.2)) ∧ (∀ m ∈ members, Plain m) ∧
      ∀ m ∈ staffMembers, Plain m := by
  decide +kernel

section

variable {c : Char} (hc : c ∈ outer) {ts : List String} {xs : List Binary64}
  (h : ∀ t ∈ ts, c ∉ t.toList)
include hc h

theorem Argument.not_mem {a : String} (ha : Argument ts xs a) : c ∉ a.toList := by
  cases ha with
  | number n => exact not_mem_of_isNumeral hc (Number.isNumeral_of_mem_toString n)
  | word hw => exact (plain_parts.1 a hw).not_mem hc
  | quoted hw =>
    have := hw.not_mem hc
    rcases eq_of_mem_outer hc with rfl | rfl <;> simp [ImportPlugin.quoted, this]
  | text ht => exact fun hmem => h _ ht ((mem_literal hc).1 hmem)
  | size hx => exact not_mem_of_isNumeral hc (Number.isNumeral_of_mem_render _)

theorem Sentence.not_mem {l : String} (hl : Sentence ts xs l) : c ∉ l.toList := by
  obtain ⟨-, hmethods, hfetches, hmembers, hstaffMembers⟩ := plain_parts
  have hcall {m : String} {as : List String} (hm : Plain m) (has : ∀ a ∈ as, Argument ts xs a) :
      c ∉ (ImportPlugin.call m as).toList := by
    rw [mem_call hc, not_or]
    refine ⟨hm.not_mem hc, ?_⟩
    rintro ⟨a, ha, hmem⟩
    exact (has a ha).not_mem hc h hmem
  induction hl with
  | call hm has => exact hcall (hmethods _ hm) has
  | @fetch x m _ hm has =>
    have hm : Plain (x ++ " = " ++ m) := hfetches (x, m) hm
    exact hcall hm has
  | set hm ha =>
    have hm := (hmembers _ hm).not_mem hc
    have ha := ha.not_mem hc h
    rcases eq_of_mem_outer hc with rfl | rfl <;> simp [hm, ha]
  | setStaff i hm ha =>
    have hm := (hstaffMembers _ hm).not_mem hc
    have ha := ha.not_mem hc h
    rcases eq_of_mem_outer hc with rfl | rfl <;> simp [hm, ha]
  | indented _ ih => rcases eq_of_mem_outer hc with rfl | rfl <;> simpa using ih

/-- No line of a passage has one of these characters, if no text has it. -/
theorem Passage.not_mem (hls : Passage ts xs ls) : ∀ l ∈ ls, c ∉ l.toList := by
  have fixed {l : List String} (hfixed : ∀ w ∈ l, '"' ∉ w.toList ∧ '\n' ∉ w.toList) :
      ∀ w ∈ l, c ∉ w.toList := by
    intro w hw
    rcases eq_of_mem_outer hc with rfl | rfl
    · exact (hfixed w hw).1
    · exact (hfixed w hw).2
  induction hls with
  | nil => exact List.forall_mem_nil _
  | append _ _ ih ih' => exact List.forall_mem_append.2 ⟨ih, ih'⟩
  | blank => exact fixed (by simp)
  | remark _ hplain => exact List.forall_mem_singleton.2 (hplain.not_mem hc)
  | sentence hl => exact List.forall_mem_singleton.2 (hl.not_mem hc h)
  | adorned hls =>
    refine List.forall_mem_append.2
      ⟨List.forall_mem_append.2 ⟨fixed (by simp), ?_⟩, fixed (by simp)⟩
    exact fun l hl => (hls l hl).not_mem hc h
  | entering => exact fixed (by simp [enteringLines])
  | missingBars n => rcases eq_of_mem_outer hc with rfl | rfl <;> simp [missingBarLines]
  | collecting => exact fixed (by simp [collectingLines])
  | setup => exact fixed (by simp)
  | @finding s total index hs =>
    have hname : c ∉ (orElse s.instrument "unnamed").toList := by
      rw [orElse, nonempty?]
      split
      · exact fixed (l := ["unnamed"]) (by simp) _ List.mem_cons_self
      · exact h _ hs
    rcases eq_of_mem_outer hc with rfl | rfl <;> simp [findingLines, quoted, hname]
  | leaving => exact fixed (by simp)

end

/-! ## The plugin file -/

/-- The text of these lines, each one with its end. -/
def body (ls : List String) : List Char := (ls.map String.toList).flatMap (· ++ ['\n'])

/-- What stands before the code. -/
def heading : List Char :=
  body ["\x7b", "\tInitialize \"() \x7b", "AddToPluginsMenu('Mahlif: Import Test', 'Run');",
    "\x7d\"", "\tRun \"() \x7b"]

/-- What stands behind the code. -/
def footing : List Char := ['\x7d', '"', '\n', '\x7d']

theorem source_eq {s : Score} (h : code s = .ok ls) :
    source s = .ok (String.ofList (heading ++ (body ls ++ footing))) := by
  rw [source, lines, h]
  refine congrArg Except.ok (String.toList_injective ?_)
  rw [Text.toList_join_newline, String.toList_ofList, List.map_append,
    Text.unlines_append_eq _ (by simp), List.map_append, List.flatMap_append, List.append_assoc]
  rfl

/-- The entry of the method that puts the plugin into a menu. -/
def initializeEntry : Entry :=
  ⟨"Initialize".toList, "() \x7b\nAddToPluginsMenu('Mahlif: Import Test', 'Run');\n\x7d".toList⟩

/-- The entry of the method with the code, with this text in it. -/
def runEntry (cs : List Char) : Entry := ⟨"Run".toList, '(' :: ')' :: ' ' :: '\x7b' :: '\n' :: cs⟩

theorem heading_eq :
    [['\x7b'], initializeEntry.text ['\t']].flatMap (· ++ ['\n']) ++ "\tRun \"() \x7b\n".toList =
      heading := by
  rfl

/-- A plugin file that starts with these entries starts with the heading. -/
theorem sheet_eq (cs : List Char) (es : List Entry) :
    sheet ['\t'] (initializeEntry :: runEntry cs :: es) =
    heading ++ (cs ++ '"' :: '\n' :: Text.unlines (es.map (·.text ['\t']) ++ [['\x7d']])) := by
  have hrun : Text.unlines ((runEntry cs).text ['\t'] :: (es.map (·.text ['\t']) ++ [['\x7d']])) =
      "\tRun \"() \x7b\n".toList ++
        (cs ++ '"' :: '\n' :: Text.unlines (es.map (·.text ['\t']) ++ [['\x7d']])) := by
    rw [Text.unlines_cons (by simp)]
    simp [Entry.text, runEntry]
  calc sheet ['\t'] (initializeEntry :: runEntry cs :: es)
      = Text.unlines
        ([['\x7b'], initializeEntry.text ['\t']] ++ (runEntry cs).text ['\t'] ::
          (es.map (·.text ['\t']) ++ [['\x7d']])) := rfl
    _ = _ := by rw [Text.unlines_append_eq _ (by simp), hrun, ← List.append_assoc, heading_eq]

theorem valid_initializeEntry : initializeEntry.Valid := by
  have hname : IsIdentifier "Initialize".toList := by decide
  exact ⟨hname, Text.escaped_iff.2 (by rfl)⟩

theorem valid_runEntry {cs : List Char} (h : '"' ∉ cs) {c : Char} (hquote : c ≠ '"')
    (hbackslash : c ≠ '\\') : (runEntry (cs ++ [c])).Valid := by
  have hname : IsIdentifier "Run".toList := by decide
  have hclear : '"' ∉ '(' :: ')' :: ' ' :: '\x7b' :: '\n' :: cs := by simpa using h
  exact ⟨hname, Text.escaped_concat hclear hquote hbackslash⟩

theorem not_mem_body {c : Char} (hc : c ≠ '\n') (h : ∀ l ∈ ls, c ∉ l.toList) : c ∉ body ls := by
  simpa [body, hc] using h

/-- **The import plugin is one plugin with two methods.** If no text has a double quote and all
notes stand at finite offsets, the plugin is written, it can be read, and its members are the
methods `Initialize` and `Run` without parameters, in this order. If a note stands at no finite
offset, no plugin is written. -/
theorem parse_source {s : Score} (hquotes : ∀ t ∈ s.texts, '"' ∉ t.toList) :
    (s.isPlaced = true → ∃ text p, source s = .ok text ∧ Plugin.parse text = .ok p ∧
      p.members.map Member.outline = [("Initialize", .method []), ("Run", .method [])]) ∧
    (s.isPlaced = false → ∃ e, source s = .error e) := by
  refine ⟨fun hplaced => ?_, fun hplaced => ?_⟩
  · obtain ⟨ls, hls, hpassage⟩ := writes_code hplaced
    have hclear : '"' ∉ body ls :=
      not_mem_body (by decide) (hpassage.not_mem quote_mem_outer hquotes)
    have hvalid : ∀ e ∈ [initializeEntry, runEntry (body ls ++ ['\x7d'])], e.Valid :=
      List.forall_mem_cons.2 ⟨valid_initializeEntry,
        List.forall_mem_singleton.2 (valid_runEntry hclear (by decide) (by decide))⟩
    obtain ⟨p, hp, hmembers⟩ := parse_sheet (show Text.AllBlank ['\t'] by decide) hvalid []
    rw [List.append_nil, sheet_eq, List.append_assoc] at hp
    exact ⟨_, p, source_eq hls, hp, hmembers⟩
  · cases hcode : code s with
    | error e => exact ⟨e, by rw [source, lines, hcode]; rfl⟩
    | ok ls =>
      rw [isPlaced_of_code hcode] at hplaced
      cases hplaced

/-- A score for one staff: a chord that is moved, texts and a syllable, with characters that need an
escape. -/
def chanson : Score :=
  let chord : NoteRest :=
    ⟨0, 256, 1, false, ⟨.ofInt 2, .ofInt 0⟩, [⟨60, none, 35, "", false⟩, ⟨64, none, 37, "", true⟩],
      ["accent"], .down, .auto⟩
  let bar : Bar :=
    ⟨1, 1024, some "page",
      [.noteRest chord, .text 0 "C:\\ 'forte'" "expression" 1 ⟨.ofInt 0, .ofInt 0⟩]⟩
  let system : Bar :=
    ⟨1, 1024, none,
      [.time 0 4 4, .tempo 0 "Don't rush" none ⟨.ofInt 0, .ofInt 0⟩, .barline 0 "final"]⟩
  let lyrics : Lyrics := ⟨1, 1, [⟨0, "l'eau", some 1, true, false⟩]⟩
  let staff : Staff := ⟨1, "Flute", "Fl.", "Flûte d'amour", "", "treble", 0, 5, 75, [bar], [lyrics]⟩
  ⟨Meta.empty, Layout.standard, [], [staff], [system]⟩

theorem parse_source_chanson :
    (∀ t ∈ chanson.texts, '"' ∉ t.toList) ∧ chanson.isPlaced = true ∧
      ∃ text p, source chanson = .ok text ∧ Plugin.parse text = .ok p ∧
        p.members.map Member.outline = [("Initialize", .method []), ("Run", .method [])] := by
  have hquotes : ∀ t ∈ chanson.texts, '"' ∉ t.toList := by decide
  have hplaced : chanson.isPlaced = true := by decide
  exact ⟨hquotes, hplaced, (parse_source hquotes).1 hplaced⟩

/-- A silent staff whose instrument has this short name. -/
def soloist (name : String) : Staff := ⟨1, "", name, "", "", "treble", 0, 5, 100, [], []⟩

/-- A score for one silent staff. -/
def solo (name : String) : Score := ⟨Meta.empty, Layout.standard, [], [soloist name], []⟩

/-- The short name stands in one line only. -/
theorem exists_code_solo :
    ∃ ls ms, ∀ name, code (solo name) = .ok (ls ++ instrumentLine (soloist name) :: ms) := by
  refine ⟨enteringLines ++ missingBarLines 0,
    [""] ++ collectingLines ++ ["// Set staff instrument names", ""] ++
      layoutLines Layout.standard ++
      ["Sibelius.CreateProgressDialog('Importing...', 0, 100);", ""] ++
        findingLines 1 0 (soloist "") ++ [""] ++ conclusion (solo ""),
    fun name => ?_⟩
  rfl

/-- Double quotes in a name end the method with the code, and what stands between them is a member
of its own. -/
theorem members_double_quote :
    ∃ text p, source (solo "\"\n\tx \"") = .ok text ∧ Plugin.parse text = .ok p ∧
    p.members.map Member.name = ["Initialize", "Run", "x"] := by
  obtain ⟨ls, ms, hcode⟩ := exists_code_solo
  -- no other line has a double quote, as the code with an empty name shows
  obtain ⟨hls, hms⟩ : '"' ∉ body ls ∧ '"' ∉ body ms := by
    obtain ⟨lines, hlines, hpassage⟩ := writes_code (show (solo "").isPlaced = true by decide)
    obtain rfl : ls ++ instrumentLine (soloist "") :: ms = lines :=
      Except.ok.inj ((hcode "").symm.trans hlines)
    have hclear := hpassage.not_mem quote_mem_outer (by decide)
    simp only [List.forall_mem_append, List.forall_mem_cons] at hclear
    exact ⟨not_mem_body (by decide) hclear.1, not_mem_body (by decide) hclear.2.2⟩
  obtain ⟨a, ha, hline⟩ : ∃ a, '"' ∉ a ∧ (instrumentLine (soloist "\"\n\tx \"")).toList =
      a ++ '\'' :: '"' :: '\n' :: '\t' :: 'x' :: ' ' :: '"' :: '\'' :: ')' :: [';'] :=
    ⟨"score.CreateInstrument('instrument.other.trebleclef', True, 'Staff 1', ".toList,
      by simp, by rfl⟩
  let smuggled : Entry := ⟨['x'], '\'' :: ')' :: ';' :: '\n' :: body ms ++ ['\x7d']⟩
  have hsheet : sheet ['\t'] [initializeEntry, runEntry (body ls ++ a ++ ['\'']), smuggled] =
      heading ++ (body (ls ++ instrumentLine (soloist "\"\n\tx \"") :: ms) ++ footing) := by
    rw [sheet_eq]
    simp [body, hline, smuggled, Entry.text, Text.unlines, Text.joinWith, footing]
  have hvalid : ∀ e ∈ [initializeEntry, runEntry (body ls ++ a ++ ['\'']), smuggled], e.Valid := by
    have hrun : (runEntry (body ls ++ a ++ ['\''])).Valid :=
      valid_runEntry (by simp [hls, ha]) (by decide) (by decide)
    have hname : IsIdentifier ['x'] := by decide
    have hsmuggled : smuggled.Valid :=
      ⟨hname, Text.escaped_concat (by simpa using hms) (by decide) (by decide)⟩
    exact List.forall_mem_cons.2 ⟨valid_initializeEntry,
      List.forall_mem_cons.2 ⟨hrun, List.forall_mem_singleton.2 hsmuggled⟩⟩
  obtain ⟨p, hp, hmembers⟩ := parse_sheet (show Text.AllBlank ['\t'] by decide) hvalid []
  rw [List.append_nil, hsheet] at hp
  refine ⟨_, p, source_eq (hcode _), hp, ?_⟩
  have hnames := congrArg (List.map Prod.fst) hmembers
  rw [List.map_map, List.map_map] at hnames
  exact hnames

end Partitura.Score.ImportPlugin
