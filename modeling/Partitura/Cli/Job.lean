import Partitura.Codec.Fault
import Partitura.Config.Find
import Partitura.Files.FileTree
import Partitura.Score.LilyPond
import Partitura.Score.Reader
import Partitura.Xml.Document

/-!
# Jobs

A job works on a tree of files and writes lines to two outputs. It may break off; what it did before
stays done.
-/

namespace Partitura.Cli

open Files

/-- What a job works on: the files, and what was written to the two outputs. -/
structure Desk where
  files : FileTree
  out : String := ""
  err : String := ""
deriving DecidableEq, Repr

/-- The kind of system the program runs on. -/
inductive OperatingSystem where
  | mac
  | windows
  | other
deriving DecidableEq, Repr

/-- What the engraver leaves behind: the pages, if there are any, how it ended, and what it
complained about. -/
structure Engraving where
  pages : Option (List UInt8)
  code : Int
  complaints : String
deriving DecidableEq, Repr

/-- Where a job runs: the current directory, the home directory, the kind of system, the directory
of the plugins that come with the program, and the engraver, if there is one. -/
structure Setting where
  cwd : Location
  home : Pathname
  system : OperatingSystem
  bundle : Pathname
  engraver : Option (List UInt8 → Engraving)

/-- What a score is read from: the bytes of a document, the path of one, or words that are either a
document or a path. -/
inductive ScoreSource where
  | bytes (bs : List UInt8)
  | path (p : Pathname)
  | words (w : String)
deriving DecidableEq, Repr

/-- Whether words are a document and not a path: they start with markup. -/
def isMarkup (w : String) : Bool := (Text.trim w.toList).head? == some '<'

/-- Why a job breaks off. -/
inductive Failure where
  | file (fault : FileFault) (path : Pathname)
  | decode (fault : Codec.DecodeFault)
  | document
  | score (e : Score.ReadError)
  | engraving (e : Score.LilyPond.ConvertError)
  | number (e : Number.Binary64.TruncateError)
  | settings (e : Config.SettingsFault)
  | noName (path : Pathname)
deriving DecidableEq, Repr

/-- How it is told that a path has no name. -/
def noNameWords (p : Pathname) : String :=
  "PosixPath(" ++ Text.quoted p.render ++ ") has an empty name"

/-- How a failure is told. -/
def Failure.message : Failure → String
  | file fault path => fault.message path
  | decode fault => fault.message
  | document => "Document is not well formed"
  | score e => e.message
  | engraving e => e.message
  | number e => e.message
  | settings e => e.message
  | noName path => noNameWords path

/-- A job. -/
abbrev Job := ExceptT Failure (StateM Desk)

namespace Job

/-- Writes a line. -/
def print (line : String) : Job Unit := modify fun d => { d with out := d.out ++ line ++ "\n" }

/-- Writes a line to the output for complaints. -/
def complain (line : String) : Job Unit := modify fun d => { d with err := d.err ++ line ++ "\n" }

/-- Asks something of the files. -/
def ask {α : Type} (p : Pathname) (f : FileTree → Except FileFault α) : Job α := do
  match f (← get).files with
  | .ok a => return a
  | .error e => throw (.file e p)

/-- Changes the files. -/
def change (p : Pathname) (f : FileTree → Except FileFault FileTree) : Job Unit := do
  let t ← ask p f
  modify fun d => { d with files := t }

/-- Takes a value, or breaks off. -/
def orFail {ε α : Type} (cause : ε → Failure) : Except ε α → Job α
  | .ok a => return a
  | .error e => throw (cause e)

/-- Whether there is something at a path. -/
def pathExists (s : Setting) (p : Pathname) : Job Bool :=
  do return (← ask p (·.find? s.cwd p)).isSome

/-- Reads a file. -/
def readFile (s : Setting) (p : Pathname) : Job (List UInt8) := ask p (·.read s.cwd p)

/-- Writes a file. -/
def writeFile (s : Setting) (p : Pathname) (bs : List UInt8) : Job Unit :=
  change p (·.write s.cwd p bs)

/-- The bytes of a document. -/
def readSource (s : Setting) : ScoreSource → Job (List UInt8)
  | .bytes bs => return bs
  | .path p => readFile s p
  | .words w => if isMarkup w then return Codec.encodeUtf8 w.toList else readFile s (.ofString w)

/-- Reads a document. -/
def readRoot (s : Setting) (source : ScoreSource) : Job Xml.Element := do
  match Xml.parse? (← readSource s source) with
  | none => throw .document
  | some root => return root

/-- Reads a score, as `parse` does. -/
def readScore (s : Setting) (source : ScoreSource) : Job Score := do
  orFail .score (Score.ofRoot (← readRoot s source))

end Job

end Partitura.Cli
