import Partitura.Number.Binary64

/-!
# Scores

A score has staves, or movements that have them. A staff has bars and lyrics, and a bar has
elements: notes and rests, signatures, and all that is written around them. Positions and durations
count ticks, of which a quarter note has 256.
-/

namespace Partitura.Score

open Number (Binary64)

/-- An offset from the usual place. -/
structure Offset where
  dx : Binary64
  dy : Binary64
deriving DecidableEq, Repr

/-- A sounding note. -/
structure Note where
  pitch : Int
  writtenPitch : Option Int
  diatonic : Int
  accidental : String
  tied : Bool
deriving DecidableEq, Repr

/-- The direction of a stem. -/
inductive Stem where
  | auto | up | down
deriving DecidableEq, Repr

/-- The place of a note in a beam. -/
inductive Beam where
  | auto | none | start | middle | fin
deriving DecidableEq, Repr

/-- A note, a chord or a rest, by the number of its notes. -/
structure NoteRest where
  pos : Int
  dur : Int
  voice : Int
  hidden : Bool
  offset : Offset
  notes : List Note
  articulations : List String
  stem : Stem
  beam : Beam
deriving DecidableEq, Repr

/-- A rest has no note. -/
def NoteRest.isRest (n : NoteRest) : Bool := n.notes.isEmpty

/-- A chord has two notes or more. -/
def NoteRest.isChord (n : NoteRest) : Bool := 1 < n.notes.length

/-- The mode of a key. -/
inductive Mode where
  | major | minor
deriving DecidableEq, Repr

/-- The direction of a hairpin. -/
inductive Swell where
  | cresc | dim
deriving DecidableEq, Repr

/-- From where to where a line runs. -/
structure Span where
  startBar : Int
  startPos : Int
  endBar : Int
  endPos : Int
deriving DecidableEq, Repr

/-- An element of a bar. -/
inductive Item where
  | noteRest (n : NoteRest)
  | clef (pos : Int) (type : String) (offset : Offset)
  | key (pos fifths : Int) (mode : Mode)
  | time (pos num den : Int)
  | dynamic (pos : Int) (text : String) (voice : Int) (offset : Offset)
  | text (pos : Int) (text style : String) (voice : Int) (offset : Offset)
  | tempo (pos : Int) (text : String) (bpm : Option Int) (offset : Offset)
  | rehearsal (pos : Int) (text type : String)
  | slur (span : Span) (voice : Int)
  | hairpin (type : Swell) (span : Span) (voice : Int)
  | tuplet (startBar startPos num den : Int)
  | barline (pos : Int) (type : String)
  | octava (type : String) (span : Span) (voice : Int)
  | pedal (type : String) (span : Span)
  | trill (span : Span) (voice : Int)
  | grace (pos : Int) (type : String) (pitch dur voice : Int)
deriving DecidableEq, Repr

/-- A bar. -/
structure Bar where
  n : Int
  length : Int
  breakType : Option String
  items : List Item
deriving DecidableEq, Repr

/-- A syllable of lyrics. -/
structure Syllable where
  pos : Int
  text : String
  bar : Option Int
  hyphen : Bool
  melisma : Bool
deriving DecidableEq, Repr

/-- A verse for a voice. -/
structure Lyrics where
  voice : Int
  verse : Int
  syllables : List Syllable
deriving DecidableEq, Repr

/-- A staff. -/
structure Staff where
  n : Int
  instrument : String
  instrumentShort : String
  fullName : String
  shortName : String
  clef : String
  keySignature : Int
  lines : Int
  size : Int
  bars : List Bar
  lyrics : List Lyrics
deriving DecidableEq, Repr

/-- The page. -/
structure Layout where
  pageWidth : Binary64
  pageHeight : Binary64
  staffHeight : Binary64
deriving DecidableEq, Repr

/-- A page of 210 by 297 with staves 7 high, in millimetres. -/
def Layout.standard : Layout := ⟨.ofInt 210, .ofInt 297, .ofInt 7⟩

/-- What is known of a work. -/
structure Meta where
  workTitle : String
  composer : String
  lyricist : String
  arranger : String
  copyright : String
  publisher : String
  sourceFile : String
  sourceFormat : String
  durationMs : Int
deriving DecidableEq, Repr

/-- Nothing known. -/
def Meta.empty : Meta := ⟨"", "", "", "", "", "", "", "", 0⟩

/-- A movement. The bars of the system hold what concerns all staves. -/
structure Movement where
  n : Int
  title : String
  layout : Layout
  staves : List Staff
  system : List Bar
deriving DecidableEq, Repr

end Partitura.Score

namespace Partitura

/-- A score: either movements, or staves of its own. -/
structure Score where
  info : Score.Meta
  layout : Score.Layout
  movements : List Score.Movement
  staves : List Score.Staff
  system : List Score.Bar
deriving DecidableEq, Repr

/-- Whether a score has movements. -/
def Score.isMultiMovement (s : Score) : Bool := !s.movements.isEmpty

end Partitura
