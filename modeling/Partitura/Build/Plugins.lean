import Partitura.Build.Sources
import Partitura.Cli.Arguments
import Partitura.Cli.Job
import Partitura.Codec.Recode
import Partitura.Layout.Plugin
import Partitura.Lint.File
import Partitura.ManuScript.Reference

/-!
# Building plugins

The sources are laid out and linted; if no error is found they are written in the encoding of the
notation program, and links to them are made where it looks for plugins. Without leave to change
anything the same words are said and nothing is written.
-/

namespace Partitura.Build

open Files Cli

/-- `get_sibelius_plugin_dir`: the directory where the notation program looks for plugins. -/
def pluginDirectory? (s : Setting) : Option Pathname :=
  match s.system with
  | .mac =>
    some (s.home.append (.ofString "Library/Application Support/Avid/Sibelius/Plugins/Other"))
  | .windows => some (s.home.append (.ofString "AppData/Roaming/Avid/Sibelius/Plugins/Other"))
  | .other => none

/-- Says something, unless the job is to be quiet. -/
def say (a : BuildArguments) (line : String) : Job Unit :=
  if a.verbose then Job.print line else pure ()

/-- Does something, if the job may change anything. -/
def act (a : BuildArguments) (job : Job Unit) : Job Unit := if a.dryRun then pure () else job

/-- The sources of a directory. -/
def findSources (s : Setting) (dir : Pathname) : Job (List Pathname) :=
  Job.ask dir (sources · s.cwd dir)

/-- Lays out a source. -/
def formatOne (s : Setting) (a : BuildArguments) (p : Pathname) : Job Unit := do
  match ← Job.orFail .decode (Layout.file? (← Job.readFile s p)) with
  | some bs =>
    Job.writeFile s p bs
    say a ("  Formatted " ++ p.name)
  | none => pure ()

/-- Whether a complaint is an error. -/
def isError (d : ManuScript.Diagnostic) : Bool := Text.hasStart d.code "MS-E"

/-- The complaints about a file. -/
def lintPath (s : Setting) (p : Pathname) : Job (List ManuScript.Diagnostic) := do
  Job.orFail .decode (Lint.lintFile .reference true (← Job.readFile s p))

/-- Lints a source, and says whether it has errors. -/
def lintOne (s : Setting) (a : BuildArguments) (p : Pathname) : Job Bool := do
  let found ← lintPath s p
  let errors := found.filter isError
  let counts := p.name ++ ": " ++ toString errors.length ++ " error(s), " ++
    toString (found.length - errors.length) ++ " warning(s)"
  if errors.isEmpty then
    say a ("✓ " ++ counts)
    return false
  else
    say a ("✗ " ++ counts)
    errors.forM fun e => say a ("  " ++ e.render)
    return true

/-- Lints all sources, and says whether one has errors. -/
def lintAll (s : Setting) (a : BuildArguments) : List Pathname → Job Bool
  | [] => return false
  | p :: ps => do
    let failed ← lintOne s a p
    let rest ← lintAll s a ps
    return failed || rest

/-- Writes a source in the encoding of the notation program. -/
def writeOne (s : Setting) (a : BuildArguments) (output p : Pathname) : Job Unit := do
  let target := output.child p.name
  say a ("Converting " ++ p.name ++ " -> " ++ target.render)
  act a do
    let text ← Job.orFail .decode (Lint.readPlugin (← Job.readFile s p))
    Job.writeFile s target (Codec.pluginBytes text)

/-- Puts a link in the place of what stands there, unless it is one to the same file already. -/
def makeLink (s : Setting) (target link : Pathname) : Job Unit := do
  match ← Job.ask link (·.find? s.cwd link) with
  | none => Job.change link (·.link s.cwd target link)
  | some e =>
    if (← Job.ask target (·.find? s.cwd target)) = some e then pure ()
    else do
      Job.change link (·.remove s.cwd link)
      Job.change link (·.link s.cwd target link)

/-- Makes links to the plugins that were built. -/
def linkAll (s : Setting) (a : BuildArguments) (dir : Pathname) (built : List Pathname) :
    Job Unit := do
  act a (Job.change dir (·.makeDirectory s.cwd dir))
  say a ("Creating hardlinks in " ++ dir.render ++ "...")
  built.forM fun target => do
    let link := dir.child target.name
    say a ("  " ++ target.name ++ " -> " ++ link.render)
    act a (makeLink s target link)

/-- Makes links, if they are asked for, and gives the directory where the notation program will find
the plugins. -/
def linkStep (s : Setting) (a : BuildArguments) (built : List Pathname) :
    Job (Option Pathname) := do
  if a.install then return pluginDirectory? s
  else if a.hardlink then
    match pluginDirectory? s with
    | none =>
      say a "Warning: Could not detect Sibelius plugin directory"
      say a "Hardlinks not created"
      return none
    | some dir =>
      linkAll s a dir built
      return some dir
  else return none

/-- Writes all sources and makes links to them. -/
def writeStep (s : Setting) (a : BuildArguments) (output : Pathname) (plugins : List Pathname) :
    Job Nat := do
  act a (Job.change output (·.makeDirectory s.cwd output))
  plugins.forM (writeOne s a output)
  let loaded ← linkStep s a (plugins.map fun p => output.child p.name)
  say a ("Done. " ++ (if a.dryRun then "Would build" else "Built") ++ " " ++
    toString plugins.length ++ " plugin(s) to " ++ output.render)
  if loaded.isSome && !a.dryRun then
    say a "Reload in Sibelius: File > Plug-ins > Edit Plug-ins > Unload/Reload"
  return 0

/-- Says that nothing will be changed, where it is so. -/
def sayDryRun (a : BuildArguments) : Job Unit := do
  if a.dryRun then
    say a "Dry run - no changes will be made"
    say a ""

/-- Lays out and lints all sources, and goes on if there are no errors. -/
def checkStep (s : Setting) (a : BuildArguments) (output : Pathname) (plugins : List Pathname) :
    Job Nat := do
  sayDryRun a
  say a "Formatting plugins..."
  plugins.forM fun p => act a (formatOne s a p)
  say a "Linting plugins..."
  if ← lintAll s a plugins then
    say a "Lint errors found. Fix before building."
    return 1
  else writeStep s a output plugins

/-- Tells which plugins were not found, and which ones there are. -/
def tellMissing (s : Setting) (a : BuildArguments) (dir : Pathname) (missing : List String) :
    Job Nat := do
  if a.verbose then
    Job.print ("Error: Could not find plugins: " ++ Text.join ", " missing)
    let available ← findSources s dir
    if !available.isEmpty then
      Job.print ("Available: " ++ Text.join ", " (available.map Pathname.stem))
  return 1

/-- Builds the plugins of the source directory into the output directory. -/
def buildInto (s : Setting) (a : BuildArguments) (dir output : Pathname) : Job Nat := do
  let (plugins, missing) ← Job.ask dir (resolve · s.cwd dir a.names)
  if !missing.isEmpty then tellMissing s a dir missing
  else if plugins.isEmpty then
    say a ("No .plg files found in " ++ dir.render)
    return 0
  else checkStep s a output plugins

/-- `build_plugins`: builds plugins, and gives the number of errors. -/
def build (s : Setting) (a : BuildArguments) : Job Nat := do
  let dir := a.source.getD s.bundle
  if a.install then
    match pluginDirectory? s with
    | none =>
      say a "Error: Could not detect Sibelius plugin directory"
      say a "Your OS may not be supported, or Sibelius is not installed."
      return 1
    | some installed => buildInto s a dir (a.output.getD installed)
  else buildInto s a dir (a.output.getD (dir.parent.parent.parent.child "dist"))

end Partitura.Build
