import Partitura.Json.Value
import Partitura.Number.Grouped
import Partitura.Number.Shortest
import Partitura.Score.Reader
import Partitura.Text.Search

/-!
# Statistics of a score

How many notes, chords, rests and other elements there are on the staves of a score, in all and
staff by staff.
-/

namespace Partitura.Score

open Number (Binary64 grouped)

/-- What is counted on one staff. -/
structure StaffStats where
  number : Int
  fullName : String
  shortName : String
  clef : String
  barsTotal : Nat
  barsWithContent : Nat
  notes : Nat
  chords : Nat
  rests : Nat
deriving DecidableEq, Repr

/-- `ScoreStats`: what is counted in a score. -/
structure Stats where
  title : String
  composer : String
  source : String
  layout : Layout
  staves : Nat
  bars : Nat
  notes : Nat
  chords : Nat
  rests : Nat
  dynamics : Nat
  slurs : Nat
  hairpins : Nat
  text : Nat
  perStaff : List StaffStats
deriving DecidableEq, Repr

namespace Item

/-- A rest. -/
def isRest : Item → Bool
  | noteRest n => n.isRest
  | _ => false

/-- A chord. -/
def isChord : Item → Bool
  | noteRest n => n.isChord
  | _ => false

/-- A note that stands alone. -/
def isSingle : Item → Bool
  | noteRest n => !n.isRest && !n.isChord
  | _ => false

/-- A dynamic. -/
def isDynamic : Item → Bool
  | dynamic .. => true
  | _ => false

/-- A slur. -/
def isSlur : Item → Bool
  | slur .. => true
  | _ => false

/-- A hairpin. -/
def isHairpin : Item → Bool
  | hairpin .. => true
  | _ => false

/-- A text. -/
def isText : Item → Bool
  | text .. => true
  | _ => false

end Item

/-- The elements of a staff. -/
def Staff.items (s : Staff) : List Item := s.bars.flatMap (·.items)

/-- Whether something sounds in a bar. -/
def Bar.sounds (b : Bar) : Bool := b.items.any fun i => i.isChord || i.isSingle

/-- The name that is shown for a staff. -/
def Staff.displayName (s : Staff) : String :=
  orElse s.fullName (orElse s.instrument ("Staff " ++ toString s.n))

/-- Counts one staff. -/
def Staff.stats (s : Staff) : StaffStats where
  number := s.n
  fullName := s.displayName
  shortName := orElse s.shortName s.instrumentShort
  clef := s.clef
  barsTotal := s.bars.length
  barsWithContent := s.bars.countP (·.sounds)
  notes := s.items.countP (·.isSingle)
  chords := s.items.countP (·.isChord)
  rests := s.items.countP (·.isRest)

/-- `compute_stats`: counts the staves of a score. -/
def stats (s : Score) : Stats :=
  let items := s.staves.flatMap (·.items)
  { title := s.info.workTitle
    composer := s.info.composer
    source := s.info.sourceFile
    layout := s.layout
    staves := s.staves.length
    bars := (s.staves.map (·.bars.length)).foldl max 0
    notes := items.countP (·.isSingle)
    chords := items.countP (·.isChord)
    rests := items.countP (·.isRest)
    dynamics := items.countP (·.isDynamic)
    slurs := items.countP (·.isSlur)
    hairpins := items.countP (·.isHairpin)
    text := items.countP (·.isText)
    perStaff := s.staves.map (·.stats) }

/-- The line of one staff. -/
def StaffStats.render (s : StaffStats) : String :=
  toString s.number ++ ". " ++ s.fullName ++ " (" ++ s.clef ++ "): " ++
    toString s.barsWithContent ++ "/" ++ toString s.barsTotal ++ " bars with content"

/-- `format_stats`: the report, with the staves one by one if `verbose`. -/
def Stats.render (verbose : Bool) (s : Stats) : String :=
  let quotedLine (label text : String) : List String :=
    if text.isEmpty then [] else [label ++ ": \"" ++ text ++ "\""]
  Text.join "\n" (
    ["=== Meta ==="] ++ quotedLine "Title" s.title ++ quotedLine "Composer" s.composer ++
    (if s.source.isEmpty then [] else ["Source: " ++ s.source]) ++
    ["", "=== Layout ==="] ++
    (if s.layout.pageWidth.isPositive || s.layout.pageHeight.isPositive then
      ["Page: " ++ s.layout.pageWidth.render ++ " x " ++ s.layout.pageHeight.render ++ " mm"]
      else []) ++
    (if s.layout.staffHeight.isPositive then ["Staff height: " ++ s.layout.staffHeight.render]
      else []) ++
    ["", "=== Content ===", "Staves: " ++ toString s.staves, "Bars: " ++ toString s.bars,
      "Notes: " ++ grouped s.notes, "Chords: " ++ grouped s.chords, "Rests: " ++ grouped s.rests,
      "Dynamics: " ++ grouped s.dynamics, "Slurs: " ++ grouped s.slurs,
      "Hairpins: " ++ grouped s.hairpins, "Text: " ++ grouped s.text, ""] ++
    (if verbose && !s.perStaff.isEmpty then "=== Staves ===" :: s.perStaff.map StaffStats.render
      else []))

/-- The counts of one staff as JSON. -/
def StaffStats.toJson (s : StaffStats) : Json :=
  .object [("number", .int s.number), ("full_name", .string s.fullName),
    ("short_name", .string s.shortName), ("clef", .string s.clef), ("bars_total", .int s.barsTotal),
    ("bars_with_content", .int s.barsWithContent), ("notes", .int s.notes),
    ("chords", .int s.chords), ("rests", .int s.rests)]

/-- The counts as JSON. -/
def Stats.toJson (s : Stats) : Json :=
  .object [("title", .string s.title), ("composer", .string s.composer),
    ("source", .string s.source), ("page_width", .real s.layout.pageWidth),
    ("page_height", .real s.layout.pageHeight), ("staff_height", .real s.layout.staffHeight),
    ("staves", .int s.staves), ("bars", .int s.bars), ("notes", .int s.notes),
    ("chords", .int s.chords), ("rests", .int s.rests), ("dynamics", .int s.dynamics),
    ("slurs", .int s.slurs), ("hairpins", .int s.hairpins), ("text", .int s.text),
    ("staff_stats", .array (s.perStaff.map StaffStats.toJson))]

end Partitura.Score
