import Partitura.Build.Plugins
import Partitura.Cli.Scores
import Partitura.Text.Difference

/-!
# Commands on plugins

Checking, laying out, building and listing plugins. Without names of files a command works on the
plugins that come with the program.
-/

namespace Partitura.Cli

open Files ManuScript

/-- The files of a command: those named, the current directory apart, or else the plugins that come
with the program. -/
def namedFiles (s : Setting) (files : List Pathname) : Job (List Pathname) := do
  let named := files.filter (·.render != ".")
  if named.isEmpty then Build.findSources s s.bundle else return named

/-- The largest exit code that counts errors. -/
def countLimit : Nat := 127

/-! ## Checking -/

/-- What holds for a check: the arguments with the settings added to them. -/
def CheckArguments.withSettings (a : CheckArguments) (c : Config.LintSettings) : CheckArguments :=
  { a with
    ignore := a.ignore ++ c.ignore
    fixable := a.fixable ++ c.fixable
    unfixable := a.unfixable ++ c.unfixable
    error := a.error ++ c.error
    strict := a.strict || c.strict }

/-- The code of blanks at the ends of lines, which can be mended. -/
def blankCode : String := "MS-W002"

/-- Whether complaints of a code may be mended. -/
def CheckArguments.mayFix (a : CheckArguments) (code : String) : Bool :=
  !a.unfixable.contains code && (a.fixable.isEmpty || a.fixable.contains code)

/-- Whether a complaint counts as an error. -/
def CheckArguments.isError (a : CheckArguments) (d : Diagnostic) : Bool :=
  Build.isError d || a.strict || a.error.contains d.code

/-- Removes blanks at the ends of lines, if that is asked for, and gives the complaints that are
left. -/
def fixBlanks (s : Setting) (a : CheckArguments) (p : Pathname) (found : List Diagnostic) :
    Job (List Diagnostic) := do
  let bs ← Job.readFile s p
  match ← Job.orFail .decode (Lint.fixFile? bs) with
  | none => return found
  | some fixed =>
    if a.mayFix blankCode then
      if a.dryRun then Job.print ("Would fix: " ++ p.render ++ " (trailing whitespace)")
      else
        Job.writeFile s p fixed
        Job.print ("✓ " ++ p.render ++ ": Fixed trailing whitespace")
      return found.filter (·.code != blankCode)
    else return found

/-- Checks a file, and gives the number of errors. -/
def checkOne (s : Setting) (a : CheckArguments) (p : Pathname) : Job Nat := do
  if !(← Job.pathExists s p) then
    Job.print (notFound p)
    return 1
  else
    let found := (← Build.lintPath s p).filter fun d => !a.ignore.contains d.code
    let left ← if a.fix then fixBlanks s a p found else pure found
    if left.isEmpty then
      if !a.fix then Job.print ("✓ " ++ p.render ++ ": No issues found")
      return 0
    else
      let errors := left.countP a.isError
      Job.print
        ("✗ " ++ p.render ++ ": " ++ toString errors ++ " error(s), " ++
          toString (left.length - errors) ++
        " warning(s)")
      left.forM fun d => Job.print ("  " ++ d.render)
      return errors

/-- The sum of what a job gives for each of the files. -/
def sumOver (job : Pathname → Job Nat) : List Pathname → Job Nat
  | [] => return 0
  | p :: ps => do
    let n ← job p
    let m ← sumOver job ps
    return n + m

/-- Checks plugins. -/
def check (s : Setting) (a : CheckArguments) : Job Nat := do
  let settings ← Job.orFail .settings (Config.settings (← get).files s.cwd)
  let a := a.withSettings settings
  let files ← namedFiles s a.files
  if files.isEmpty then
    Job.print "No .plg files found"
    return 0
  else return min (← sumOver (checkOne s a) files) countLimit

/-! ## Laying out -/

/-- Lays out a file or tells what would change, and gives the number of files that are not laid
out. -/
def formatOne (s : Setting) (a : FormatArguments) (p : Pathname) : Job Nat := do
  if !(← Job.pathExists s p) then
    Job.complain (notFound p)
    return 1
  else
    let bs ← Job.readFile s p
    let text ← Job.orFail .decode (Layout.readSource bs)
    let laidOut ← Job.orFail .decode (Layout.file bs)
    if text = laidOut then
      if !a.check then Job.print ("✓ " ++ p.render ++ ": Already formatted")
      return 0
    else if a.check then
      Job.print ("✗ " ++ p.render ++ ": Would reformat")
      return 1
    else if a.diff then
      Job.print (String.ofList (Text.difference p.render text laidOut))
      return 1
    else
      Job.writeFile s p (Codec.encodeUtf8 laidOut)
      Job.print ("✓ " ++ p.render ++ ": Reformatted")
      return 0

/-- Lays out plugins. -/
def format (s : Setting) (a : FormatArguments) : Job Nat := do
  let files ← namedFiles s a.files
  let count ← sumOver (formatOne s a) files
  if a.check && 0 < count then
    Job.print ("\n" ++ toString count ++ " file(s) would be reformatted")
    return 1
  else return 0

/-! ## Listing -/

/-- Lists the plugins that come with the program. -/
def listPlugins (s : Setting) : Job Nat := do
  let plugins ← Build.findSources s s.bundle
  if plugins.isEmpty then Job.print "No plugins found"
  else
    Job.print "Available plugins:"
    plugins.forM fun p => Job.print ("  " ++ p.stem)
  return 0

/-- Tells where the notation program looks for plugins. -/
def showDirectory (s : Setting) : Job Nat := do
  match Build.pluginDirectory? s with
  | none =>
    Job.print "Could not detect Sibelius plugin directory for this OS"
    return 1
  | some p =>
    Job.print p.render
    return 0

/-- The plugin that is installed if none is named. -/
def defaultPlugin : String := "MahlifExport"

/-- `run_command`: runs a command for plugins. -/
def PluginCommand.run (s : Setting) : PluginCommand → Job Nat
  | build a => Build.build s a
  | check a => Cli.check s a
  | install names dryRun =>
    Build.build s
      { names := if names.isEmpty then [defaultPlugin] else names, install := true, dryRun }
  | list => listPlugins s
  | showDirectory => Cli.showDirectory s
  | format a => Cli.format s a

/-! ## Linting -/

/-- Lints a file, and gives the number of complaints. -/
def lintOne (s : Setting) (fix : Bool) (p : Pathname) : Job Nat := do
  if !(← Job.pathExists s p) then
    Job.complain (notFound p)
    return 1
  else
    let found ← Build.lintPath s p
    let left ← if fix then fixBlanks s {} p found else pure found
    if left.isEmpty then
      if !fix then Job.print ("✓ " ++ p.render ++ ": No issues found")
      return 0
    else
      Job.print ("✗ " ++ p.render ++ ": " ++ toString left.length ++ " issue(s) found\n")
      left.forM fun d => Job.print ("  " ++ d.render)
      return left.length

/-- Lints files. -/
def lintFiles (s : Setting) (fix : Bool) (files : List Pathname) : Job Nat := do
  return min (← sumOver (lintOne s fix) files) countLimit

end Partitura.Cli
