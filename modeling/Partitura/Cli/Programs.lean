import Partitura.Bundle.Cyrus
import Partitura.Bundle.Export
import Partitura.Cli.Plugins
import Partitura.ManuScript.Manual

/-!
# Programs

The program with all its commands, and the smaller programs that do one of its jobs: each reads its
command line and runs.
-/

namespace Partitura.Cli

open Files

/-- How a run ends: with an exit code, because of the command line, or because its job broke off. -/
inductive Ending where
  | code (n : Nat)
  | stopped (why : Stop)
  | failed (why : Failure)
deriving DecidableEq, Repr

/-- The exit code of a stop. -/
def Stop.code : Stop → Nat
  | usage => 2
  | help _ => 0
  | version => 0

/-- What is written at a stop. -/
def Stop.text : Stop → String
  | usage => ""
  | help t => t
  | version => versionText

/-- The end of a run whose exit code is dropped by its caller. -/
def Ending.withoutCode : Ending → Ending
  | code _ => .code 0
  | e => e

/-- Runs a job. -/
def runJob (job : Job Nat) (d : Desk) : Ending × Desk :=
  match job.run d with
  | (.ok n, d) => (.code n, d)
  | (.error e, d) => (.failed e, d)

/-- Reads a command line and runs the job it asks for. -/
def runWith {α : Type} (read : Except Stop (α × List String)) (job : α → Job Nat) (d : Desk) :
    Ending × Desk :=
  match complete read with
  | .ok a => runJob (job a) d
  | .error why => (.stopped why, { d with out := d.out ++ why.text })

/-- Runs the job of counting; its arguments are read as a command line of their own. -/
def statsProgram (s : Setting) (args : List String) : Desk → Ending × Desk :=
  runWith (readWith statsGrammar StatsArguments.ofParsed args) (stats s)

/-- A command line for counting. -/
def StatsArguments.words (a : StatsArguments) : List String :=
  [a.file.render] ++ (if a.json then ["--json"] else []) ++
    (if a.verbose then ["--verbose"] else [])

/-- Runs a command. -/
def Command.run (s : Setting) (c : Command) : Desk → Ending × Desk :=
  match c with
  | help => fun d => (.code 0, { d with out := d.out ++ mainHelp })
  | convert a => runJob (Cli.convert s a)
  | stats a => statsProgram s a.words
  | encoding a => runJob (Cli.encoding s a)
  | plugins c => runJob (c.run s)

/-- The program with all its commands. -/
def mainProgram (s : Setting) (args : List String) (d : Desk) : Ending × Desk :=
  match complete (Command.read args) with
  | .ok c => c.run s d
  | .error why => (.stopped why, { d with out := d.out ++ why.text })

/-- The program for plugins. -/
def pluginProgram (s : Setting) (args : List String) : Desk → Ending × Desk :=
  runWith (PluginCommand.read args) (·.run s)

/-- A program that is run as a package: whoever runs it drops its exit code. -/
def packaged (program : Setting → List String → Desk → Ending × Desk) (s : Setting)
    (args : List String) (d : Desk) : Ending × Desk :=
  (program s args d).map Ending.withoutCode id

/-- The program that builds plugins. -/
def buildProgram (s : Setting) (args : List String) : Desk → Ending × Desk :=
  runWith (readWith buildGrammar BuildArguments.ofParsed args) (Build.build s)

/-- The program that lints files. -/
def lintProgram (s : Setting) (args : List String) : Desk → Ending × Desk :=
  runWith (readWith lintGrammar (fun p => (p.has "--fix", p.paths "files")) args)
    fun (fix, files) => lintFiles s fix files

/-- The program that makes a plugin from a score, under the name it was called by. -/
def importProgram (s : Setting) (name : String) (args : List String) : Desk → Ending × Desk :=
  match args with
  | input :: output :: _ => runJob (importPlugin s (.ofString input) (.ofString output))
  | _ => runJob do
    Job.print ("Usage: " ++ name ++ " <input.mahlif.xml> <output.plg>")
    return 1

/-- The program that reads the manual. -/
def manualProgram (input : List Char) : Desk → Ending × Desk :=
  runJob do
    Job.print (ManuScript.Manual.referenceText input)
    return 0

/-- The tree with the plugins that come with the program, in their directory. -/
def withBundle (t : FileTree) (dir : Pathname) : Except FileFault FileTree := do
  let t ← t.addFile [] (dir.append (.ofString "MahlifExport.plg"))
      (Codec.encodeUtf8 Bundle.Export.text.toList)
  t.addFile [] (dir.append (.ofString "cyrus/Cyrus.plg"))
    (Codec.encodeUtf8 Bundle.Cyrus.text.toList)

end Partitura.Cli
