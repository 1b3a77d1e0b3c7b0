import Partitura.Codec.Encoding
import Partitura.Lint.Bodies
import Partitura.Lint.Brackets
import Partitura.Lint.Calls
import Partitura.Lint.Directives
import Partitura.Lint.Lines
import Partitura.Lint.Loops
import Partitura.Lint.Structure

/-!
# Linting a plugin file

All complaints about a plugin file, sorted by their place; and the removal of blanks at the ends of
lines.
-/

namespace Partitura.Lint

open ManuScript Codec

/-- How the bytes of a plugin file are read: the encoding, and the mark in front. -/
structure Coding where
  encoding : Encoding
  mark : List UInt8
deriving DecidableEq, Repr

/-- The coding that a byte order mark tells. -/
def markedCoding? : List UInt8 → Option Coding
  | 0xFE :: 0xFF :: _ => some ⟨.utf16Plain .big, [0xFE, 0xFF]⟩
  | 0xFF :: 0xFE :: _ => some ⟨.utf16Plain .little, [0xFF, 0xFE]⟩
  | _ => none

/-- The coding in which a file is read: as its mark tells, big-endian if only the first byte is
zero, or else UTF-8. -/
def codingOf (bs : List UInt8) : Coding :=
  match markedCoding? bs, bs with
  | some c, _ => c
  | none, 0 :: b :: _ => if b == 0 then ⟨.utf8, []⟩ else ⟨.utf16Plain .big, []⟩
  | none, _ => ⟨.utf8, []⟩

/-- `read_plugin`: the text of a plugin file. -/
def readPlugin (bs : List UInt8) : Except DecodeFault (List Char) :=
  let c := codingOf bs
  c.encoding.decode (bs.drop c.mark.length)

/-- The complaints about a text, in the order in which they are found. -/
def findings (language : Language) (content : List Char) : List Diagnostic :=
  structureIssues content ++ bracketIssues content ++ nameIssues content ++
    callIssues language content ++
    blankIssues content ++ methodIssues language content ++ loopIssues content

/-- The order of reports: by line, then by column. -/
def reportedBefore (a b : Diagnostic) : Bool :=
  a.pos.line < b.pos.line || (a.pos.line == b.pos.line && a.pos.col ≤ b.pos.col)

/-- The complaints about a text as they are reported; `obey` says whether directives silence
them. -/
def lintText (language : Language) (obey : Bool) (content : List Char) : List Diagnostic :=
  let found := findings language content
  let d := directives content
  (if obey then found.filter fun e => !d.silenced e.pos.line e.code else found).mergeSort
    reportedBefore

/-- `lint`: the complaints about a file. -/
def lintFile (language : Language) (obey : Bool) (bs : List UInt8) :
    Except DecodeFault (List Diagnostic) :=
  (readPlugin bs).map (lintText language obey)

/-- Removes the blanks at the end of every line; nothing if there are none. -/
def trimLines? (content : List Char) : Option (List Char) :=
  let ls := Text.lines content
  let trimmed := ls.map Text.trimRight
  if ls = trimmed then none else some (Text.unlines trimmed)

/-- `fix_trailing_whitespace`: the bytes of a file without blanks at the ends of lines, or nothing
if they need no change. A file without a mark is written in UTF-8. -/
def fixFile? (bs : List UInt8) : Except DecodeFault (Option (List UInt8)) :=
  (readPlugin bs).map fun content =>
    (trimLines? content).map fun text =>
      match markedCoding? bs with
      | some ⟨.utf16Plain order, mark⟩ => mark ++ encodeUtf16 order text
      | _ => encodeUtf8 text

end Partitura.Lint
