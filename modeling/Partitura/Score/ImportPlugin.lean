import Partitura.Score.Stats

/-!
# Scores as import plugins

A plugin whose code builds the score when it runs: first the bars and instruments, then staff by
staff what stands in the bars, then what concerns all staves. All data are written into the code;
texts stand in it as escaped strings.
-/

namespace Partitura.Score.ImportPlugin

open Number (Binary64)

/-- A character inside a string of the plugin: backslashes and apostrophes have a backslash before
them. -/
def escapeChar (c : Char) : List Char := if c == '\\' || c == '\'' then ['\\', c] else [c]

/-- `escape_str`: a text inside a string of the plugin. -/
def escape (s : String) : String := String.ofList (s.toList.flatMap escapeChar)

/-- A text in quotes, as it is. -/
def quoted (s : String) : String := "'" ++ s ++ "'"

/-- A text as a string of the plugin. -/
def literal (s : String) : String := quoted (escape s)

/-- A call of a method, as a statement. -/
def call (target : String) (arguments : List String) : String :=
  target ++ "(" ++ Text.join ", " arguments ++ ");"

/-- A truth value. -/
def truth (b : Bool) : String := if b then "True" else "False"

/-- `_calc_spanner_duration`: the duration of a line from one place to another; bars in between are
taken to be as long as the first one. -/
def spanDuration (s : Span) (barLength : Int) : Int :=
  if s.startBar = s.endBar then s.endPos - s.startPos
  else barLength - s.startPos + (s.endBar - s.startBar - 1) * barLength + s.endPos

/-- The constants for articulations. -/
def articulations : List (String × String) :=
  [("staccato", "StaccatoArtic"), ("accent", "AccentArtic"), ("tenuto", "TenutoArtic"),
    ("marcato", "MarcatoArtic"), ("staccatissimo", "StaccatissimoArtic"), ("wedge", "WedgeArtic"),
    ("fermata", "PauseArtic"), ("pause", "PauseArtic"), ("up-bow", "UpBowArtic"),
    ("down-bow", "DownBowArtic"), ("harmonic", "HarmonicArtic"), ("plus", "PlusArtic"),
    ("tri-pause", "TriPauseArtic"), ("square-pause", "SquarePauseArtic")]

/-- The constants for barlines. -/
def barlines : List (String × String) :=
  [("double", "SpecialBarlineDouble"), ("final", "SpecialBarlineFinal"),
    ("repeat-start", "SpecialBarlineStartRepeat"), ("repeat-end", "SpecialBarlineEndRepeat"),
    ("dashed", "SpecialBarlineDashed"), ("invisible", "SpecialBarlineInvisible"),
    ("tick", "SpecialBarlineTick"), ("short", "SpecialBarlineShort"),
    ("dotted", "SpecialBarlineDotted")]

/-- The identifiers of clefs. -/
def clefs : List (String × String) :=
  [("treble", "clef.treble"), ("bass", "clef.bass"), ("alto", "clef.alto"), ("tenor", "clef.tenor"),
    ("percussion", "clef.percussion")]

/-- The identifiers of octave lines. -/
def octavas : List (String × String) :=
  [("8va", "line.staff.octava.plus8"), ("8vb", "line.staff.octava.minus8"),
    ("15va", "line.staff.octava.plus15"), ("15vb", "line.staff.octava.minus15")]

/-! ## Bars -/

/-- A line that moves a note by an offset, unless it is zero. -/
def offsetLine (member : String) (x : Binary64) : Except Binary64.TruncateError (List String) :=
  if x.isZero then .ok []
  else x.truncate.map fun n => ["\tnr." ++ member ++ " = " ++ toString n ++ ";"]

/-- The line for the direction of a stem. -/
def stemLine : Stem → List String
  | .up => ["\tnr.StemDirection = 1;"]
  | .down => ["\tnr.StemDirection = -1;"]
  | .auto => []

/-- The lines that adorn a note: articulations, offsets and stem. -/
def adornments (n : NoteRest) : Except Binary64.TruncateError (List String) := do
  let marks := n.articulations.filterMap fun a =>
    (articulations.lookup a).map fun c => "\t" ++ call "nr.SetArticulation" [c, "True"]
  let dx ← offsetLine "Dx" n.offset.dx
  let dy ← offsetLine "Dy" n.offset.dy
  return marks ++ dx ++ dy ++ stemLine n.stem

/-- Whether a single note has anything to adorn it with. -/
def isAdorned (n : NoteRest) : Bool :=
  !n.articulations.isEmpty || !n.offset.dx.isZero || !n.offset.dy.isZero || n.stem != .auto

/-- The line that adds a note to the bar. -/
def addedLine (n : NoteRest) (first : Note) : String :=
  call "nr = b.AddNote" [toString n.pos, toString first.pitch, toString n.dur, truth first.tied,
    toString n.voice]

/-- The line that adds a note to the one before. -/
def joinedLine (k : Note) : String := "\t" ++ call "nr.AddNote" [toString k.pitch]

/-- The lines of a note or a chord: the first note is added to the bar, the others and the
adornments to the first. -/
def noteLines (n : NoteRest) : Except Binary64.TruncateError (List String) :=
  match n.notes with
  | [] => .ok []
  | first :: more => do
    let adorn ← adornments n
    if n.isChord || isAdorned n then
      return [addedLine n first, "if (nr != null) \x7b"] ++ more.map joinedLine ++ adorn ++ ["\x7d"]
    else return [addedLine n first]

/-- A text in the bar. -/
def textLine (bar : String) (pos : Int) (text style : String) : String :=
  call (bar ++ ".AddText") [toString pos, literal text, quoted style]

/-- A line in the bar, unless it has no duration. -/
def spanLine (barLength : Int) (s : Span) (style : String) (voice : Int) : List String :=
  let duration := spanDuration s barLength
  if 0 < duration then
    [call "b.AddLine" [toString s.startPos, toString duration, quoted style, "0", "0",
      toString voice]]
  else []

/-- The style of a text. -/
def textStyle (style : String) : String :=
  if Text.contains style "technique" then "text.staff.technique"
  else if Text.contains style "expression" then "text.staff.expression"
  else "text.staff.plain"

/-- The lines of a special barline. -/
def barlineLine (bar type : String) : List String :=
  (barlines.lookup type).toList.map fun c => call (bar ++ ".AddSpecialBarline") [c]

/-- The note that a grace note would need. -/
def graceLine (pos : Int) (type : String) : List String :=
  let remark (method : String) : List String :=
    ["// Grace note at " ++ toString pos ++ " (" ++ type ++ ") - requires " ++
      method ++ " on NoteRest"]
  match type with
  | "acciaccatura" => remark "AddAcciaccaturaBefore"
  | "appoggiatura" => remark "AddAppoggiaturaBefore"
  | _ => []

/-- The lines of an element in a bar of that length. Rests, keys and times need none. -/
def itemLines (barLength : Int) (i : Item) : Except Binary64.TruncateError (List String) :=
  match i with
  | .noteRest n => noteLines n
  | .dynamic pos text _ _ => .ok [textLine "b" pos text "text.staff.expression"]
  | .text pos text style _ _ => .ok [textLine "b" pos text (textStyle style)]
  | .clef pos type _ =>
    .ok [call "b.AddClef" [toString pos, quoted ((clefs.lookup type).getD "clef.treble")]]
  | .slur span voice => .ok (spanLine barLength span "line.staff.slur.up" voice)
  | .hairpin .cresc span voice => .ok (spanLine barLength span "line.staff.hairpin.crescendo" voice)
  | .hairpin .dim span voice => .ok (spanLine barLength span "line.staff.hairpin.diminuendo" voice)
  | .tuplet _ startPos num den =>
    .ok [call "b.AddTuplet" [toString startPos, "1", toString num, toString den, "256"]]
  | .barline _ type => .ok (barlineLine "b" type)
  | .octava type span voice =>
    .ok (spanLine barLength span ((octavas.lookup type).getD "line.staff.octava.plus8") voice)
  | .pedal _ span => .ok (spanLine barLength span "line.staff.pedal" 1)
  | .trill span voice => .ok (spanLine barLength span "line.staff.trill" voice)
  | .grace pos type _ _ _ => .ok (graceLine pos type)
  | .tempo pos text _ _ =>
    .ok (if text.isEmpty then [] else [textLine "b" pos text "text.system.tempo"])
  | .rehearsal pos text _ => .ok [textLine "b" pos text "text.system.rehearsalmark"]
  | .key .. => .ok []
  | .time .. => .ok []

/-- The lines of a bar; a bar in which nothing sounds has none. -/
def barLines (b : Bar) : Except Binary64.TruncateError (List String) :=
  if b.sounds then do
    let lines ← b.items.mapM (itemLines b.length)
    return call "b = st.NthBar" [toString b.n] :: lines.flatten
  else .ok []

/-! ## Staves -/

/-- The lines of a syllable; one without a bar has none. -/
def syllableLines (voice : Int) (s : Syllable) : List String :=
  match s.bar with
  | none => []
  | some n =>
    [call "b = st.NthBar" [toString n],
      call "b.AddLyric" [toString s.pos, "256", literal s.text, if s.hyphen then "1" else "0", "1",
        toString voice]]

/-- The lines of a verse. -/
def lyricsLines (l : Lyrics) : List String :=
  ("// Lyrics voice " ++ toString l.voice ++ " verse " ++ toString l.verse) ::
    l.syllables.flatMap (syllableLines l.voice)

/-- The clef that decides on the instrument: that of the staff, or the first one in the first bar if
it is the usual one. -/
def leadingClef (s : Staff) : String :=
  let found := (s.bars.head?.map (·.items)).getD [] |>.findSome? fun i =>
    match i with
    | .clef _ type _ => some type
    | _ => none
  if s.clef = "treble" then found.getD s.clef else s.clef

/-- The line that creates the instrument of a staff. -/
def instrumentLine (s : Staff) : String :=
  let style :=
    if leadingClef s = "bass" then "instrument.other.bassclef" else "instrument.other.trebleclef"
  call "score.CreateInstrument" [quoted style, "True", literal s.displayName,
    literal (orElse s.shortName s.instrumentShort)]

/-- The lines that name and size a staff. -/
def namingLines (index : Nat) (s : Staff) : List String :=
  let member (name value : String) : String :=
    "staves[" ++ toString index ++ "]." ++ name ++ " = " ++ value ++ ";"
  (if s.fullName.isEmpty then [] else [member "FullInstrumentName" (literal s.fullName)]) ++
    (if s.shortName.isEmpty then [] else [member "ShortInstrumentName" (literal s.shortName)]) ++
    (if s.size = 100 then [] else [member "SmallStaffSize" (toString s.size)])

/-- The lines that find a staff, of which there are `total`. -/
def findingLines (total index : Nat) (s : Staff) : List String := [
  call "Sibelius.UpdateProgressDialog"
    [toString (index * 100 / total),
      quoted ("Staff " ++ toString (index + 1) ++ " of " ++ toString total ++ "...")],
  "// Staff " ++ toString (index + 1) ++ ": " ++ orElse s.instrument "unnamed",
  "st = staves[" ++ toString index ++ "];",
  "if (st = null) \x7b",
  "\t" ++ call "Sibelius.MessageBox" [quoted ("Staff " ++ toString index ++ " is null")],
  "\treturn False;",
  "\x7d"]

/-- The lines of a staff. -/
def staffLines (total index : Nat) (s : Staff) : Except Binary64.TruncateError (List String) := do
  let bars ← s.bars.mapM barLines
  return findingLines total index s ++ bars.flatten ++ s.lyrics.flatMap lyricsLines ++ [""]

/-! ## The system -/

/-- The break after a bar; of several bars with one number the last one counts. -/
def breakAt? (bars : List Bar) (n : Int) : Option String :=
  (bars.reverse.find? fun b => b.n == n && b.breakType.isSome).bind (·.breakType)

/-- Whether an element concerns all staves. -/
def concernsSystem : Item → Bool
  | .time .. | .key .. | .tempo .. | .barline .. => true
  | _ => false

/-- The line for a break. -/
def breakLine : String → List String
  | "page" => ["sysBar.BreakType = EndOfPage;"]
  | "system" => ["sysBar.BreakType = EndOfSystem;"]
  | _ => []

/-- The lines of an element that concerns all staves. -/
def systemLines : Item → List String
  | .time _ num den =>
    [call "sysBar.AddTimeSignature" [toString num, toString den, "False", "False"]]
  | .key pos fifths mode =>
    [call "sysBar.AddKeySignature" [toString pos, toString fifths, truth (mode == .major)]]
  | .tempo pos text _ _ =>
    if text.isEmpty then [] else [textLine "sysBar" pos text "text.system.tempo"]
  | .barline _ type => barlineLine "sysBar" type
  | _ => []

/-- Inserts a number into a sorted list, once. -/
def insertNumber (n : Int) : List Int → List Int
  | [] => [n]
  | m :: ms => if n < m then n :: m :: ms else if n = m then m :: ms else m :: insertNumber n ms

/-- The greatest number of bars of a staff. -/
def maxBars (s : Score) : Nat := (s.staves.map (·.bars.length)).foldl max 0

/-- The bars of the first staff, which tells the breaks. -/
def breakBars (s : Score) : List Bar := (s.staves.head?.map (·.bars)).getD []

/-- The numbers of the bars that have something for all staves, in order, up to the number of bars
of the score. -/
def systemNumbers (s : Score) : List Int :=
  let marked := ((breakBars s).filter (·.breakType.isSome)).map (·.n) ++
    (s.system.filter fun b => b.items.any concernsSystem).map (·.n)
  (marked.filter fun n => n ≤ (maxBars s : Int)).foldl (fun ns n => insertNumber n ns) []

/-- The lines of a bar that concern all staves. -/
def systemBarLines (s : Score) (n : Int) : List String :=
  [call "sysBar = score.SystemStaff.NthBar" [toString n]] ++
    ((breakAt? (breakBars s) n).map breakLine).getD [] ++
    ((s.system.find? (·.n == n)).map fun b => b.items.flatMap systemLines).getD []

/-! ## The plugin -/

/-- A member of the page setup, if the size is positive. -/
def pageLine (member : String) (x : Binary64) : List String :=
  if x.isPositive then ["docSetup." ++ member ++ " = " ++ x.render ++ ";"] else []

/-- The lines for the page. -/
def layoutLines (l : Layout) : List String :=
  if l.pageWidth.isPositive || l.pageHeight.isPositive then
    ["// Page layout", "docSetup = score.DocumentSetup;", "docSetup.Units = 'mm';"] ++
      pageLine "PageWidth" l.pageWidth ++ pageLine "PageHeight" l.pageHeight ++
        pageLine "StaffSize" l.staffHeight ++ [""]
  else []

/-- The code that stops where no score is open, and counts the staves of the one that is. -/
def enteringLines : List String :=
  ["score = Sibelius.ActiveScore;", "if (null = score) \x7b",
    "\tSibelius.MessageBox('No score open. Create a blank score first.');",
    "\treturn False;", "\x7d", "", "existingCount = 0;", "for each s in score \x7b",
    "\texistingCount = existingCount + 1;", "\x7d", ""]

/-- The code that adds the bars that are missing. -/
def missingBarLines (bars : Nat) : List String :=
  ["// Ensure we have " ++ toString bars ++ " bars",
    "barsNeeded = " ++ toString bars ++ " - score.SystemStaff.BarCount;",
    "if (barsNeeded > 0) \x7b", "\tscore.AddBars(barsNeeded);", "\x7d", ""]

/-- The code that collects the staves that were added. -/
def collectingLines : List String :=
  ["staves = CreateSparseArray();", "idx = 0;", "staffNum = 0;", "for each s in score \x7b",
    "\tif (staffNum >= existingCount) \x7b", "\t\tstaves[idx] = s;", "\t\tidx = idx + 1;", "\t\x7d",
    "\tstaffNum = staffNum + 1;", "\x7d", ""]

/-- The code before the first staff. -/
def preparation (s : Score) : List String :=
  enteringLines ++ missingBarLines (maxBars s) ++ s.staves.map instrumentLine ++ [""] ++
    collectingLines ++
  ["// Set staff instrument names"] ++
    (s.staves.zipIdx.flatMap fun (staff, i) => namingLines i staff) ++ [""] ++
  layoutLines s.layout ++ ["Sibelius.CreateProgressDialog('Importing...', 0, 100);", ""]

/-- The code after the last staff. -/
def conclusion (s : Score) : List String :=
  ["// System staff: breaks, time/key, tempo, barlines"] ++
    (systemNumbers s).flatMap (systemBarLines s) ++
  ["", "// Optimize staff spacing", "score.OptimizeStaffSpacing(1);", "",
    "Sibelius.DestroyProgressDialog();",
    call "Sibelius.MessageBox"
      [quoted ("Import complete: " ++ toString s.staves.length ++ " staves")], "return True;"]

/-- The code that builds the score. -/
def code (s : Score) : Except Binary64.TruncateError (List String) := do
  let staves ← s.staves.zipIdx.mapM fun (staff, i) => staffLines s.staves.length i staff
  return preparation s ++ staves.flatten ++ conclusion s

/-- The lines of the plugin: a method that puts it into a menu, and the one that builds the
score. -/
def lines (s : Score) : Except Binary64.TruncateError (List String) :=
  (code s).map fun ls =>
    ["\x7b", "\tInitialize \"() \x7b", "AddToPluginsMenu('Mahlif: Import Test', 'Run');", "\x7d\"",
      "\tRun \"() \x7b"] ++ ls ++ ["\x7d\"", "\x7d"]

/-- `generate_plugin`: the text of the plugin. -/
def source (s : Score) : Except Binary64.TruncateError String := (lines s).map (Text.join "\n")

end Partitura.Score.ImportPlugin
