import Partitura.Number.Shortest
import Partitura.Score.Reader
import Partitura.Text.Search

/-!
# Scores as LilyPond source

The text of a score in the LilyPond language: names of pitches with marks for the octave, durations
from a table, and bar by bar the elements in their order. Some elements have no form in that
language and are refused.
-/

namespace Partitura.Score.LilyPond

open Number (Binary64)

/-- Why a score cannot be written. -/
inductive ConvertError where
  /-- An element of that kind has no form. -/
  | unknownItem (kind : String)
  /-- A pitch has more octave marks than can be written. -/
  | octave
deriving DecidableEq, Repr

/-- How it is told that a score cannot be written. -/
def ConvertError.message : ConvertError → String
  | unknownItem kind => "Unknown bar element type: " ++ kind
  | octave => "cannot fit 'int' into an index-sized integer"

/-! ## Pitches and durations -/

/-- The names of the twelve pitch classes. -/
def pitchNames : List String :=
  ["c", "cis", "d", "dis", "e", "f", "fis", "g", "gis", "a", "ais", "b"]

/-- The letters of the twelve pitch classes. -/
def letters : List String := ["c", "c", "d", "d", "e", "f", "f", "g", "g", "a", "a", "b"]

/-- The octave of a pitch: zero for the one below middle C. -/
def octaveOf (pitch : Int) : Int := pitch.fdiv 12 - 4

/-- The ending for an accidental. -/
def ending? : String → Option String
  | "#" => some "is"
  | "b" => some "es"
  | "x" => some "isis"
  | "bb" => some "eses"
  | _ => none

/-- The marks of an octave. -/
def octaveMarks (octave : Int) : String :=
  String.ofList (List.replicate octave.toNat '\'' ++ List.replicate (-octave).toNat ',')

/-- The name of a pitch; an accidental that is known is put to the letter of the pitch class. -/
def pitchName (pitch : Int) (accidental : String) : String :=
  let i := (pitch.fmod 12).toNat
  (match ending? accidental with
    | some ending => letters.getD i "c" ++ ending
    | none => pitchNames.getD i "c") ++ octaveMarks (octaveOf pitch)

/-- The greatest number of marks that can be written. -/
def octaveLimit : Int := Int.pow 2 63

/-- `_pitch_to_lily`: the name of a pitch whose marks can be written. -/
def pitchName? (pitch : Int) (accidental : String) : Except ConvertError String :=
  if octaveLimit ≤ octaveOf pitch ∨ octaveLimit ≤ -octaveOf pitch then .error .octave
  else .ok (pitchName pitch accidental)

/-- The durations that have a name, in ticks, from short to long. -/
def durations : List (Int × String) :=
  [(64, "16"), (96, "16."), (128, "8"), (192, "8."), (256, "4"), (384, "4."), (512, "2"),
    (768, "2."), (1024, "1"), (1536, "1."), (2048, "\\breve")]

/-- `_duration_to_lily`: the name of the shortest duration that is not shorter, or of a quarter. -/
def duration (ticks : Int) : String :=
  ((durations.find? fun d => ticks ≤ d.1).map (·.2)).getD "4"

/-- `_bar_rest`: a rest for a whole bar. -/
def barRest (length : Int) : String :=
  match durations.lookup length with
  | some name => "R" ++ name
  | none => if length = 1280 then "R1*5/4" else "R1"

/-! ## Signs -/

/-- `_clef_to_lily`: the name of a clef. -/
def clef (name : String) : String :=
  ([("treble", "treble"), ("bass", "bass"), ("alto", "alto"), ("tenor", "tenor"),
    ("treble-8vb", "treble_8"), ("treble-8va", "treble^8"), ("bass-8vb", "bass_8"),
    ("bass-8va", "bass^8"), ("percussion", "percussion")].lookup
      name).getD "treble"

/-- The names of the major keys, from seven flats to seven sharps. -/
def majorKeys : List String :=
  ["ces", "ges", "des", "aes", "ees", "bes", "f", "c", "g", "d", "a", "e", "b", "fis", "cis"]

/-- The names of the minor keys, from seven flats to seven sharps. -/
def minorKeys : List String :=
  ["aes", "ees", "bes", "f", "c", "g", "d", "a", "e", "b", "fis", "cis", "gis", "dis", "ais"]

/-- `_key_to_lily`: the key of that many fifths, at most seven either way. -/
def key (fifths : Int) (mode : Mode) : String :=
  let i := (max 0 (min 14 (fifths + 7))).toNat
  match mode with
  | .minor => minorKeys.getD i "c" ++ " \\minor"
  | .major => majorKeys.getD i "c" ++ " \\major"

/-- `_time_to_lily`: a time signature. -/
def time (num den : Int) : String := "\\time " ++ toString num ++ "/" ++ toString den

/-- `_barline_to_lily`: the sign of a barline; an invisible one has none. -/
def barline (type : String) : String :=
  let sign :=
    ([("single", "|"), ("double", "||"), ("final", "|."), ("repeat-start", ".|:"),
      ("repeat-end", ":|."), ("repeat-both", ":|.|:"), ("dashed", "!"),
      ("invisible", "")].lookup type).getD "|"
  if sign.isEmpty then "" else "\\bar \"" ++ sign ++ "\""

/-- `_articulation_to_lily`: the sign of an articulation; none for one that is not known. -/
def articulation (name : String) : String :=
  ([("staccato", "-."), ("staccatissimo", "-!"), ("tenuto", "--"), ("accent", "->"),
    ("marcato", "-^"), ("fermata", "\\fermata"), ("long-fermata", "\\longfermata"),
    ("short-fermata", "\\shortfermata"), ("up-bow", "\\upbow"), ("down-bow", "\\downbow"),
    ("harmonic", "\\flageolet"), ("trill", "\\trill"),
    ("arpeggio", "\\arpeggio")].lookup name).getD ""

/-! ## Bars and staves -/

/-- `_noterest_to_lily`: a note, a chord or a rest. -/
def noteRest (n : NoteRest) : Except ConvertError String := do
  let names ← n.notes.mapM fun k => pitchName? k.pitch k.accidental
  let marks :=
    String.join (n.articulations.map articulation) ++ (if n.notes.any (·.tied) then "~" else "")
  match names with
  | [] => return (if n.hidden then "s" else "r") ++ duration n.dur
  | [name] => return name ++ duration n.dur ++ marks
  | names => return "<" ++ Text.join " " names ++ ">" ++ duration n.dur ++ marks

/-- An element of a bar: its form, if it has one of its own there. -/
def item? (i : Item) : Except ConvertError (Option String) :=
  match i with
  | .time _ num den => .ok (some (time num den))
  | .key _ fifths mode => .ok (some ("\\key " ++ key fifths mode))
  | .clef _ type _ => .ok (some ("\\clef " ++ clef type))
  | .noteRest n => (noteRest n).map some
  | .dynamic _ text _ _ => .ok (some ("\\" ++ text))
  | .slur .. => .ok none
  | .hairpin .cresc _ _ => .ok (some "\\<")
  | .hairpin .dim _ _ => .ok (some "\\>")
  | .tuplet .. => .ok none
  | .barline _ type => .ok (nonempty? (barline type))
  | .text .. => .error (.unknownItem "Text")
  | .tempo .. => .error (.unknownItem "Tempo")
  | .rehearsal .. => .error (.unknownItem "Rehearsal")
  | .octava .. => .error (.unknownItem "Octava")
  | .pedal .. => .error (.unknownItem "Pedal")
  | .trill .. => .error (.unknownItem "Trill")
  | .grace .. => .error (.unknownItem "Grace")

/-- Whether an element fills time in its bar. -/
def fillsTime : Item → Bool
  | .noteRest _ => true
  | _ => false

/-- `_convert_bar`: a bar: its elements, and a rest for the whole bar if there is neither note nor
rest. -/
def bar (b : Bar) : Except ConvertError String := do
  let parts ← b.items.mapM item?
  let rest := if b.items.any fillsTime then [] else [barRest b.length]
  return Text.join " " (parts.filterMap id ++ rest)

/-- `_convert_staff`: a staff. -/
def staff (s : Staff) : Except ConvertError String := do
  let bars ← s.bars.mapM bar
  return Text.join "\n" [
    "  \\new Staff = \"" ++ orElse s.instrument ("Staff " ++ toString s.n) ++ "\" \x7b",
    "    \\clef " ++ clef s.clef,
    "    \\key " ++ key s.keySignature .major,
    "    " ++ Text.join " " (bars.flatMap fun b => [b, "|"]),
    "  \x7d"]

/-- The staves of a score or a movement, as the lines of a block. -/
def scoreBlock (staves : List Staff) : Except ConvertError (List String) := do
  let parts ← staves.mapM staff
  return ["\\score \x7b", "  <<"] ++ parts ++ ["  >>", "\x7d"]

/-- `_convert_movement`: a movement. -/
def movement (m : Movement) : Except ConvertError String := do
  let block ← scoreBlock m.staves
  let title := if m.title.isEmpty then [] else ["% Movement " ++ toString m.n ++ ": " ++ m.title]
  return Text.join "\n" (title ++ block)

/-- A line of the header, unless there is nothing to say. -/
def headerLine (label text : String) : List String :=
  if text.isEmpty then [] else ["  " ++ label ++ " = \"" ++ text ++ "\""]

/-- The page of a score: of its first movement, if it has movements. -/
def pageOf (s : Score) : Layout := (s.movements.head?.map (·.layout)).getD s.layout

/-- `to_lilypond`: a score as source text. -/
def source (s : Score) : Except ConvertError String := do
  let page := pageOf s
  let content ←
    if s.isMultiMovement then do
      let parts ← s.movements.mapM movement
      pure (parts.flatMap fun p => [p, ""])
    else scoreBlock s.staves
  return Text.join "\n" (
    ["\\version \"2.24.0\"", "", "\\header \x7b"] ++
    headerLine "title" s.info.workTitle ++ headerLine "composer" s.info.composer ++
    headerLine "poet" s.info.lyricist ++ headerLine "arranger" s.info.arranger ++
    headerLine "copyright" s.info.copyright ++
    ["\x7d", "", "\\paper \x7b",
      "  #(set-paper-size '(cons (* " ++ page.pageWidth.render ++ " mm) (* " ++
        page.pageHeight.render ++ " mm)))",
      "\x7d", ""] ++ content)

end Partitura.Score.LilyPond
