import Partitura.Codec.Recode
import Partitura.Files.FileTree

/-!
# Changing the encoding of a file

A file is read in one encoding and written in another, in its place or elsewhere. The file that is
written is emptied before its text is put into bytes, so a text that has no bytes in the new
encoding leaves it empty.
-/

namespace Partitura.Files

open Codec

/-- Why the encoding of a file was not changed. -/
inductive RecodeFault where
  | unknownEncoding (name : String)
  | file (fault : FileFault) (path : Pathname)
  | decode (fault : DecodeFault)
  | encode (fault : EncodeFault)
deriving DecidableEq, Repr

/-- How a fault is told. -/
def RecodeFault.message : RecodeFault → String
  | unknownEncoding name => Encoding.unknownName name
  | file fault path => fault.message path
  | decode fault => fault.message
  | encode fault => fault.message

/-- What was asked for: the file, the name of the new encoding, the file to write, and the name of
the old encoding, which is detected if it is not given. -/
structure RecodeJob where
  input : Pathname
  target : String
  output : Pathname
  source : Option String
deriving DecidableEq, Repr

/-- What was done: the encodings before and after. -/
structure Recoded where
  source : Encoding
  target : Encoding
deriving DecidableEq, Repr

/-- The encoding of a name. -/
def encodingNamed (name : String) : Except RecodeFault Encoding :=
  match Encoding.ofName? name with
  | some e => .ok e
  | none => .error (.unknownEncoding name)

/-- The new text of the file, with the encodings. -/
def RecodeJob.text (job : RecodeJob) (t : FileTree) (cwd : Location) :
    Except RecodeFault (Recoded × List Char) := do
  let target ← encodingNamed job.target
  let named ← job.source.mapM encodingNamed
  let bs ← (t.read cwd job.input).mapError (.file · job.input)
  let source := named.getD (detect bs)
  let text ← (recodedText source target bs).mapError .decode
  return (⟨source, target⟩, text)

/-- `convert_encoding`: changes the encoding; with the tree of files after it. -/
def RecodeJob.run (job : RecodeJob) (t : FileTree) (cwd : Location) :
    Except RecodeFault Recoded × FileTree :=
  match job.text t cwd with
  | .error e => (.error e, t)
  | .ok (done, text) =>
    match t.write cwd job.output [] with
    | .error f => (.error (.file f job.output), t)
    | .ok emptied =>
      match done.target.encode text with
      | .error f => (.error (.encode f), emptied)
      | .ok bs =>
        match emptied.write cwd job.output bs with
        | .error f => (.error (.file f job.output), emptied)
        | .ok written => (.ok done, written)

end Partitura.Files
