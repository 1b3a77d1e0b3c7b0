import Partitura.Cli.Arguments
import Partitura.Cli.Job
import Partitura.Codec.Recode
import Partitura.Files.Recode
import Partitura.Json.Printer
import Partitura.Layout.Plugin
import Partitura.Number.Grouped
import Partitura.Score.ImportPlugin
import Partitura.Score.Stats

/-!
# Commands on scores

Changing a score from one format into another, counting what is in it, and changing the encoding of
a file.
-/

namespace Partitura.Cli

open Files

/-! ## Formats -/

/-- The ends of names by which formats are known. -/
def formatSuffixes : List (String × String) :=
  [(".mahlif.xml", "mahlif"), (".mahlif", "mahlif"), (".plg", "sibelius"), (".ly", "lilypond"),
    (".musicxml", "musicxml"), (".mxl", "musicxml"), (".pdf", "pdf")]

/-- `detect_format`: the format of a file, from its name in any case. -/
def formatOf? (p : Pathname) : Option String :=
  (formatSuffixes.find? fun (suffix, _) => Text.hasEnd (Text.lower p.name) suffix).map (·.2)

/-- Tells that a path leads nowhere. -/
def notFound (p : Pathname) : String := "Error: " ++ p.render ++ " not found"

/-- Tells how large a file became. -/
def tellGenerated (p : Pathname) (size : Nat) : Job Unit :=
  Job.print ("Generated " ++ p.render ++ " (" ++ Number.grouped size ++ " bytes)")

/-- Says what is done, and does it unless nothing may be changed. -/
def announced (a : ConvertArguments) (remark : String) (job : Job Nat) : Job Nat := do
  let verb := if a.dryRun then "Would convert" else "Converting"
  Job.print (verb ++ " " ++ a.source.render ++ " → " ++ a.target.render ++ remark)
  if a.dryRun then return 0 else job

/-- The text of a score for the engraver. -/
def engraverText (score : Score) : Job (List UInt8) := do
  return Codec.encodeUtf8 (← Job.orFail .engraving (Score.LilyPond.source score)).toList

/-- A score as a plugin that builds it. -/
def toPlugin (s : Setting) (a : ConvertArguments) : Job Nat := do
  let score ← Job.readScore s (.path a.source)
  let text ← Job.orFail .number (Score.ImportPlugin.source score)
  let bs := Codec.markedUtf16 .big text.toList
  Job.writeFile s a.target bs
  tellGenerated a.target bs.length
  return 0

/-- A score as text for the engraver. -/
def toEngraver (s : Setting) (a : ConvertArguments) : Job Nat := do
  let score ← Job.readScore s (.path a.source)
  let bs ← engraverText score
  Job.writeFile s a.target bs
  tellGenerated a.target bs.length
  return 0

/-- The size that is told for a directory. -/
def directorySize : Nat := 4096

/-- Copies the pages to the target, or into it under a name if it is a directory; gives the size of
the target. -/
def copyPages (s : Setting) (target : Pathname) (bs : List UInt8) : Job Nat := do
  if (← Job.ask target (·.find? s.cwd target)) = some .directory then
    Job.writeFile s (target.child "score.pdf") bs
    return directorySize
  else
    Job.writeFile s target bs
    return bs.length

/-- A score as pages, made by the engraver. -/
def toPages (s : Setting) (a : ConvertArguments) (engraver : List UInt8 → Engraving) : Job Nat := do
  let score ← Job.readScore s (.path a.source)
  let result := engraver (← engraverText score)
  if result.code ≠ 0 then
    Job.print "Error: LilyPond compilation failed"
    Job.print result.complaints
    return 1
  else match result.pages with
    | none =>
      Job.print "Error: LilyPond did not produce PDF"
      return 1
    | some bs =>
      let size ← copyPages s a.target bs
      tellGenerated a.target size
      return 0

/-- Tells which formats can be changed into which. -/
def tellUnsupported (sourceFormat targetFormat : String) : Job Nat := do
  Job.print
    ("Error: Conversion from " ++ sourceFormat ++ " to " ++ targetFormat ++ " not supported")
  Job.print ""
  Job.print "Supported conversions:"
  Job.print "  mahlif → sibelius (.plg)"
  Job.print "  mahlif → lilypond (.ly)"
  Job.print "  mahlif → pdf (via LilyPond)"
  return 1

/-- Changes a score from one known format into another. -/
def convertBetween (s : Setting) (a : ConvertArguments) (sourceFormat targetFormat : String) :
    Job Nat :=
  match sourceFormat, targetFormat with
  | "mahlif", "sibelius" => announced a "" (toPlugin s a)
  | "mahlif", "lilypond" => announced a "" (toEngraver s a)
  | "mahlif", "pdf" =>
    match s.engraver with
    | none => do
      Job.print "Error: LilyPond not found"
      Job.print "Install LilyPond from https://lilypond.org/"
      return 1
    | some engraver => announced a " (via LilyPond)" (toPages s a engraver)
  | sourceFormat, targetFormat => tellUnsupported sourceFormat targetFormat

/-- Tells that a format is not known. -/
def tellUnknownFormat (p : Pathname) (option role : String) : Job Nat := do
  Job.print ("Error: Cannot detect format for " ++ p.render)
  Job.print ("Use " ++ option ++ " to specify the " ++ role ++ " format")
  return 1

/-- `cmd_convert`: changes a score from one format into another. -/
def convert (s : Setting) (a : ConvertArguments) : Job Nat := do
  if !(← Job.pathExists s a.source) then
    Job.print (notFound a.source)
    return 1
  else match a.sourceFormat.or (formatOf? a.source), a.targetFormat.or (formatOf? a.target) with
    | none, _ => tellUnknownFormat a.source "--from" "source"
    | _, none => tellUnknownFormat a.target "--to" "destination"
    | some sourceFormat, some targetFormat => convertBetween s a sourceFormat targetFormat

/-! ## Counting -/

/-- Counts what is in a score. -/
def stats (s : Setting) (a : StatsArguments) : Job Nat := do
  if !(← Job.pathExists s a.file) then
    Job.print (notFound a.file)
    return 1
  else
    let found := (← Job.readScore s (.path a.file)).stats
    Job.print (if a.json then found.toJson.pretty else found.render a.verbose)
    return 0

/-! ## Encodings -/

/-- `cmd_encoding`: changes the encoding of a file; what goes wrong is told. -/
def encoding (s : Setting) (a : EncodingArguments) : Job Nat := do
  if !(← Job.pathExists s a.file) then
    Job.print (notFound a.file)
    return 1
  else
    let output := a.output.getD a.file
    let (result, files) := RecodeJob.run ⟨a.file, a.target, output, a.source⟩ (← get).files s.cwd
    modify fun d => { d with files }
    match result with
    | .error e =>
      Job.print ("Error: " ++ e.message)
      return 1
    | .ok done =>
      if a.file = output then
        Job.print
          ("Converted " ++ a.file.render ++ " to " ++ done.target.name ++ " in place (was " ++
            done.source.name ++ ")")
      else
        Job.print
          ("Converted " ++ a.file.render ++ " → " ++ output.render ++ " (" ++
            done.source.name ++ " → " ++
          done.target.name ++ ")")
      return 0

/-! ## A plugin from a score, with a report -/

/-- The end of the name of the file that holds the text for a while. -/
def temporarySuffix : String := ".utf8.tmp"

/-- Makes a plugin that builds a score, through a file that holds its text for a while, and tells
about it. -/
def importPlugin (s : Setting) (input output : Pathname) : Job Nat := do
  if !(← Job.pathExists s input) then
    Job.print (notFound input)
    return 1
  else
    Job.print ("Parsing " ++ input.render ++ "...")
    let score ← Job.readScore s (.path input)
    let found := score.stats
    Job.print ("Generating plugin for '" ++ Score.orElse score.info.workTitle input.stem ++ "'...")
    Job.print ("  " ++ toString found.staves ++ " staves")
    Job.print ("  " ++ toString (found.notes + found.chords) ++ " notes/chords")
    let text ← Job.orFail .number (Score.ImportPlugin.source score)
    match output.withSuffix? temporarySuffix with
    | none => throw (.noName output)
    | some temporary =>
      Job.writeFile s temporary (Codec.encodeUtf8 text.toList)
      let text ← Job.orFail .decode (Layout.readSource (← Job.readFile s temporary))
      let bs := Codec.markedUtf16 .big text
      Job.writeFile s output bs
      Job.change temporary (·.remove s.cwd temporary)
      Job.print ("Generated " ++ output.render)
      Job.print ("  " ++ Number.grouped bs.length ++ " bytes")
      return 0

end Partitura.Cli
