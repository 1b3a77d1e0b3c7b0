import Partitura.Number.Literal
import Partitura.Score.Basic
import Partitura.Text.LowerCase
import Partitura.Xml.Node

/-!
# Reading scores

A score from the root element of its document. Missing attributes have defaults, and what is not
known is passed over, but an unknown child of a bar and a number that cannot be read are errors. The
attributes of an element are read in a fixed order, and the first error counts.
-/

namespace Partitura.Score

open Number Xml

/-- Why a document is no score. -/
inductive ReadError where
  | literal (cause : LiteralError)
  | tempo (cause : Binary64.TruncateError)
  | unknownItem (tag : String)
  /-- A comment or an instruction among the elements of a bar. -/
  | strayNode
  | unknownNoteRest (tag : String)
  | wrongRoot (tag : String)
deriving DecidableEq, Repr

/-- How it is told that a document is no score. -/
def ReadError.message : ReadError → String
  | literal cause => cause.message
  | tempo cause => cause.message
  | unknownItem tag => "Unknown bar element tag: " ++ Text.quoted tag
  | strayNode => "Unknown bar element tag"
  | unknownNoteRest tag => "Unknown noterest type: " ++ Text.quoted tag
  | wrongRoot tag => "Invalid root element: " ++ Text.quoted tag ++ ". Expected 'mahlif'."

/-! ## Attributes -/

/-- An integer. -/
def intOf (s : String) : Except ReadError Int := (readInt s).mapError .literal

/-- A real number. -/
def realOf (s : String) : Except ReadError Binary64 := (readReal s).mapError .literal

/-- `_get_int`: an integer attribute. -/
def intAttr (e : Element) (name : String) (default : Int := 0) : Except ReadError Int :=
  match e.get? name with
  | some s => intOf s
  | none => .ok default

/-- `_get_float`: a real attribute. -/
def realAttr (e : Element) (name : String) (default : Binary64 := .zero false) :
    Except ReadError Binary64 :=
  match e.get? name with
  | some s => realOf s
  | none => .ok default

/-- `_get_attr`: a text attribute. -/
def textAttr (e : Element) (name : String) (default : String := "") : String :=
  (e.get? name).getD default

/-- `_get_bool`: an attribute that is yes or no. -/
def boolAttr (e : Element) (name : String) : Bool :=
  match e.get? name with
  | some s => ["true", "1", "yes"].contains (Text.lower s)
  | none => false

/-- A text, unless it is empty. -/
def nonempty? (s : String) : Option String := if s.isEmpty then none else some s

/-- A number, unless it is zero. -/
def nonzero? (n : Int) : Option Int := if n = 0 then none else some n

/-- The first text that is not empty. -/
def orElse (s t : String) : String := (nonempty? s).getD t

/-- `_get_text`: the text of a child element. -/
def childText (e : Element) (tag : String) : String := ((e.find? tag).map (·.text)).getD ""

/-- `_parse_position`: the offset of an element. -/
def offsetOf (e : Element) : Except ReadError Offset := do
  let dx ← realAttr e "dx"
  let dy ← realAttr e "dy"
  return ⟨dx, dy⟩

/-- The span of an element. -/
def spanOf (e : Element) : Except ReadError Span := do
  let startBar ← intAttr e "start-bar"
  let startPos ← intAttr e "start-pos"
  let endBar ← intAttr e "end-bar"
  let endPos ← intAttr e "end-pos"
  return ⟨startBar, startPos, endBar, endPos⟩

/-! ## Bars -/

/-- `_parse_note`: a note of a chord. -/
def chordNote (e : Element) : Except ReadError Note := do
  let pitch ← intAttr e "p"
  let diatonic ← intAttr e "d"
  return ⟨pitch, none, diatonic, textAttr e "a", boolAttr e "t"⟩

/-- The note that stands alone. -/
def singleNote (e : Element) : Except ReadError Note := do
  let pitch ← intAttr e "pitch"
  let written ← intAttr e "written-pitch"
  let diatonic ← intAttr e "diatonic"
  return ⟨pitch, nonzero? written, diatonic, textAttr e "accidental", boolAttr e "tied"⟩

/-- The notes of an element. -/
def notesOf (e : Element) : Except ReadError (List Note) :=
  match e.tag with
  | "chord" => (e.findAll "n").mapM chordNote
  | "note" => (singleNote e).map ([·])
  | "rest" => .ok []
  | tag => .error (.unknownNoteRest tag)

/-- The words of a text. -/
def words (s : String) : List String :=
  (s.toList.splitBy fun a b => Text.isBlank a == Text.isBlank b).filterMap fun w =>
    if w.head?.any Text.isBlank then none else some (String.ofList w)

/-- The direction of a stem of that name. -/
def stemOf : String → Stem
  | "up" => .up
  | "down" => .down
  | _ => .auto

/-- The place in a beam of that name. -/
def beamOf : String → Beam
  | "none" => .none
  | "start" => .start
  | "continue" => .middle
  | "end" => .fin
  | _ => .auto

/-- `_parse_noterest`: a note, a chord or a rest. -/
def noteRestOf (e : Element) : Except ReadError NoteRest := do
  let notes ← notesOf e
  let pos ← intAttr e "pos"
  let dur ← intAttr e "dur"
  let voice ← intAttr e "voice" 1
  let offset ← offsetOf e
  return {
    pos, dur, voice, offset, notes
    hidden := boolAttr e "hidden"
    articulations := words (textAttr e "articulations")
    stem := stemOf (textAttr e "stem")
    beam := beamOf (textAttr e "beam") }

/-- Beats per minute: the integer part, and none for zero. -/
def bpmOf (x : Binary64) : Except ReadError (Option Int) :=
  if x.isZero then .ok none else (x.truncate.mapError .tempo).map some

/-- An element of a bar. -/
def itemOf (e : Element) : Except ReadError Item :=
  match e.tag with
  | "note" | "chord" | "rest" => (noteRestOf e).map .noteRest
  | "clef" => do
    let pos ← intAttr e "pos"
    let offset ← offsetOf e
    return .clef pos (textAttr e "type" "treble") offset
  | "key" => do
    let pos ← intAttr e "pos"
    let fifths ← intAttr e "fifths"
    return .key pos fifths (if textAttr e "mode" = "minor" then .minor else .major)
  | "time" => do
    let pos ← intAttr e "pos"
    let num ← intAttr e "num"
    let den ← intAttr e "den"
    return .time pos num den
  | "dynamic" => do
    let pos ← intAttr e "pos"
    let voice ← intAttr e "voice" 1
    let offset ← offsetOf e
    return .dynamic pos (textAttr e "text") voice offset
  | "text" => do
    let pos ← intAttr e "pos"
    let voice ← intAttr e "voice" 1
    let offset ← offsetOf e
    return .text pos e.text (textAttr e "style") voice offset
  | "tempo" => do
    let pos ← intAttr e "pos"
    let bpm ← (← realAttr e "bpm") |> bpmOf
    let offset ← offsetOf e
    return .tempo pos (textAttr e "text") bpm offset
  | "rehearsal" => do
    let pos ← intAttr e "pos"
    return .rehearsal pos (orElse e.text (textAttr e "text")) (orElse (textAttr e "type") "custom")
  | "slur" => do
    let span ← spanOf e
    let voice ← intAttr e "voice" 1
    return .slur span voice
  | "hairpin" => do
    let span ← spanOf e
    let voice ← intAttr e "voice" 1
    return .hairpin (if textAttr e "type" = "dim" then .dim else .cresc) span voice
  | "tuplet" => do
    let startBar ← intAttr e "start-bar"
    let startPos ← intAttr e "start-pos"
    let num ← intAttr e "num"
    let den ← intAttr e "den"
    return .tuplet startBar startPos num den
  | "barline" => do
    let pos ← intAttr e "pos"
    return .barline pos (textAttr e "type" "single")
  | "octava" => do
    let span ← spanOf e
    let voice ← intAttr e "voice" 1
    return .octava (textAttr e "type" "8va") span voice
  | "pedal" => do
    let span ← spanOf e
    return .pedal (textAttr e "type" "sustain") span
  | "trill" => do
    let span ← spanOf e
    let voice ← intAttr e "voice" 1
    return .trill span voice
  | "grace" => do
    let pos ← intAttr e "pos"
    let pitch ← intAttr e "pitch"
    let dur ← intAttr e "dur"
    let voice ← intAttr e "voice" 1
    return .grace pos (textAttr e "type" "grace") pitch dur voice
  | tag => .error (.unknownItem tag)

/-- `_parse_bar_elements`: the elements of a bar: text between them is passed over. -/
def itemsOf : List Node → Except ReadError (List Item)
  | [] => .ok []
  | .text _ :: r => itemsOf r
  | .element tag attributes children :: r => do
    let item ← itemOf ⟨tag, attributes, children⟩
    let items ← itemsOf r
    return item :: items
  | _ :: _ => .error .strayNode

/-- `_parse_bar`: a bar. -/
def barOf (e : Element) : Except ReadError Bar := do
  let n ← intAttr e "n"
  let length ← intAttr e "length" 1024
  let items ← itemsOf e.children
  return ⟨n, length, nonempty? (textAttr e "break"), items⟩

/-- The bars of a staff. -/
def barsOf (e : Element) : Except ReadError (List Bar) := (e.findAll "bar").mapM barOf

/-! ## Staves -/

/-- A syllable. -/
def syllableOf (e : Element) : Except ReadError Syllable := do
  let pos ← intAttr e "pos"
  let bar ← intAttr e "bar"
  return ⟨pos, e.text, nonzero? bar, boolAttr e "hyphen", boolAttr e "melisma"⟩

/-- `_parse_lyrics`: a verse. -/
def lyricsOf (e : Element) : Except ReadError Lyrics := do
  let syllables ← (e.findAll "syl").mapM syllableOf
  let voice ← intAttr e "voice" 1
  let verse ← intAttr e "verse" 1
  return ⟨voice, verse, syllables⟩

/-- `_parse_staff`: a staff. -/
def staffOf (e : Element) : Except ReadError Staff := do
  let bars ← barsOf e
  let lyrics ← (e.findAll "lyrics").mapM lyricsOf
  let n ← intAttr e "n"
  let keySignature ← intAttr e "key-sig"
  let lines ← intAttr e "lines" 5
  let size ← intAttr e "size" 100
  return {
    n, keySignature, lines, size, bars, lyrics
    instrument := textAttr e "instrument"
    instrumentShort := textAttr e "instrument-short"
    fullName := textAttr e "full-name"
    shortName := textAttr e "short-name"
    clef := textAttr e "clef" "treble" }

/-- The staves inside an element. -/
def stavesOf (e : Element) : Except ReadError (List Staff) :=
  match e.find? "staves" with
  | some s => (s.findAll "staff").mapM staffOf
  | none => .ok []

/-- `_parse_system_staff`: the bars of the system inside an element. -/
def systemOf (e : Element) : Except ReadError (List Bar) :=
  match e.find? "system-staff" with
  | some s => barsOf s
  | none => .ok []

/-- `_parse_layout`: the page. -/
def layoutOf (e : Element) : Except ReadError Layout := do
  let page := (e.find? "page").getD ⟨"page", [], []⟩
  let width ← realAttr page "width" Layout.standard.pageWidth
  let height ← realAttr page "height" Layout.standard.pageHeight
  let staff ← match nonempty? (childText e "staff-height") with
    | some s => realOf s
    | none => .ok Layout.standard.staffHeight
  return ⟨width, height, staff⟩

/-- The page inside an element. -/
def layoutIn (e : Element) : Except ReadError Layout :=
  match e.find? "layout" with
  | some l => layoutOf l
  | none => .ok .standard

/-- `_parse_meta`: what is known of the work. -/
def metaOf (e : Element) : Except ReadError Meta := do
  let durationMs ← match nonempty? (childText e "duration-ms") with
    | some s => intOf s
    | none => .ok 0
  return {
    durationMs
    workTitle := childText e "work-title"
    composer := childText e "composer"
    lyricist := childText e "lyricist"
    arranger := childText e "arranger"
    copyright := childText e "copyright"
    publisher := childText e "publisher"
    sourceFile := childText e "source-file"
    sourceFormat := childText e "source-format" }

/-- `_parse_movement`: a movement. -/
def movementOf (e : Element) : Except ReadError Movement := do
  let title := ((e.find? "movement-meta").map (childText · "title")).getD ""
  let layout ← layoutIn e
  let staves ← stavesOf e
  let system ← systemOf e
  let n ← intAttr e "n"
  return ⟨n, title, layout, staves, system⟩

/-- `parse`: a score from the root element of its document. With movements it has no staves of its
own. -/
def ofRoot (root : Element) : Except ReadError Score := do
  if root.tag ≠ "mahlif" then throw (.wrongRoot root.tag)
  let info ← match root.find? "meta" with
    | some m => metaOf m
    | none => .ok .empty
  match root.find? "movements" with
  | some ms =>
    let movements ← (ms.findAll "movement").mapM movementOf
    return ⟨info, .standard, movements, [], []⟩
  | none =>
    let layout ← layoutIn root
    let staves ← stavesOf root
    let system ← systemOf root
    return ⟨info, layout, [], staves, system⟩

end Partitura.Score
