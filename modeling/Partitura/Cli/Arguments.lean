import Partitura.Cli.Options
import Partitura.Files.Pathname
import Partitura.Text.Trim

/-!
# Commands

The commands of the program with their arguments, and how they are read from the command line.
-/

namespace Partitura.Cli

open Files

/-! ## Commands -/

/-- Building plugins: where from, where to, which ones, whether into the directory of the notation
program, with links there, without changing anything, and with words. -/
structure BuildArguments where
  source : Option Pathname := none
  output : Option Pathname := none
  names : List String := []
  install : Bool := false
  hardlink : Bool := false
  dryRun : Bool := false
  verbose : Bool := true
deriving DecidableEq, Repr

/-- Checking plugins: whether to mend them, and the codes that are left out, may and may not be
mended, and count as errors. -/
structure CheckArguments where
  fix : Bool := false
  dryRun : Bool := false
  ignore : List String := []
  fixable : List String := []
  unfixable : List String := []
  error : List String := []
  strict : Bool := false
  files : List Pathname := []
deriving DecidableEq, Repr

/-- Laying out plugins: only tell which ones, or show what would change. -/
structure FormatArguments where
  check : Bool := false
  diff : Bool := false
  files : List Pathname := []
deriving DecidableEq, Repr

/-- The commands for plugins. -/
inductive PluginCommand where
  | build (a : BuildArguments)
  | check (a : CheckArguments)
  | install (names : List String) (dryRun : Bool)
  | list
  | showDirectory
  | format (a : FormatArguments)
deriving DecidableEq, Repr

/-- Changing a score from one format into another. -/
structure ConvertArguments where
  source : Pathname
  target : Pathname
  sourceFormat : Option String := none
  targetFormat : Option String := none
  dryRun : Bool := false
deriving DecidableEq, Repr

/-- Counting what is in a score. -/
structure StatsArguments where
  file : Pathname
  json : Bool := false
  verbose : Bool := false
deriving DecidableEq, Repr

/-- Changing the encoding of a file. -/
structure EncodingArguments where
  target : String
  file : Pathname
  output : Option Pathname := none
  source : Option String := none
deriving DecidableEq, Repr

/-- The commands of the program. -/
inductive Command where
  | help
  | convert (a : ConvertArguments)
  | stats (a : StatsArguments)
  | encoding (a : EncodingArguments)
  | plugins (c : PluginCommand)
deriving DecidableEq, Repr

/-! ## Grammars -/

/-- The option for help. -/
def helpOption : OptionSpec := ⟨["-h", "--help"], .help, []⟩

/-- An option that is set. -/
def setOption (names : List String) : OptionSpec := ⟨names, .set, []⟩

/-- An option with a value. -/
def valueOption (names : List String) : OptionSpec := ⟨names, .value, []⟩

/-- The option to change nothing. -/
def dryRunOption : OptionSpec := setOption ["-n", "--dry-run"]

/-- The help of the program. -/
def mainHelp : String := Text.join "\n"
  ["usage: mahlif [-h] [--version]",
    "              \x7bconvert,stats,encoding,sibelius,manuscript\x7d ...",
    "",
    "Universal music notation interchange format converter",
    "",
    "positional arguments:",
    "  \x7bconvert,stats,encoding,sibelius,manuscript\x7d",
    "    convert             Convert between formats",
    "    stats               Show score statistics",
    "    encoding            Convert file encoding",
    "    sibelius            Sibelius plugin tools",
    "    manuscript          ManuScript language tools (alias for sibelius)",
    "",
    "options:",
    "  -h, --help            show this help message and exit",
    "  --version             show program's version number and exit",
    ""]

/-- The name and version of the program. -/
def versionText : String := "mahlif 0.1.0\n"

/-- The program. -/
def mainGrammar : Grammar where
  options := [helpOption, ⟨["--version"], .version, []⟩]
  places :=
    [⟨"command", .command false, ["convert", "stats", "encoding", "sibelius", "manuscript"]⟩]
  help := mainHelp

/-- Changing a score from one format into another. -/
def convertGrammar : Grammar where
  options := [helpOption, ⟨["--from"], .value, ["mahlif", "musicxml"]⟩,
    ⟨["--to"], .value, ["sibelius", "lilypond", "musicxml", "pdf"]⟩, dryRunOption]
  places := [⟨"src", .one, []⟩, ⟨"dest", .one, []⟩]

/-- Counting what is in a score. -/
def statsGrammar : Grammar where
  options := [helpOption, setOption ["--json"], setOption ["-v", "--verbose"]]
  places := [⟨"file", .one, []⟩]

/-- Changing the encoding of a file. -/
def encodingGrammar : Grammar where
  options := [helpOption, valueOption ["-o", "--output"], valueOption ["-s", "--source"]]
  places :=
    [⟨"target", .one, ["utf8", "utf16", "utf16le", "utf16be", "latin1", "ascii"]⟩,
      ⟨"file", .one, []⟩]

/-- The commands for plugins. -/
def pluginGrammar : Grammar where
  options := [helpOption]
  places :=
    [⟨"command", .command true, ["build", "check", "install", "list", "show-plugin-dir", "format"]⟩]

/-- Building plugins. -/
def buildGrammar : Grammar where
  options :=
    [helpOption, valueOption ["-o", "--output"], setOption ["--install"],
      setOption ["--hardlink"], dryRunOption,
    setOption ["-q", "--quiet"], valueOption ["--source"]]
  places := [⟨"plugins", .many, []⟩]

/-- Checking plugins. -/
def checkGrammar : Grammar where
  options :=
    [helpOption, setOption ["--fix"], dryRunOption, valueOption ["--ignore"],
      valueOption ["--fixable"],
    valueOption ["--unfixable"], setOption ["--strict"], valueOption ["--error"]]
  places := [⟨"files", .many, []⟩]

/-- Installing plugins. -/
def installGrammar : Grammar where
  options := [helpOption, dryRunOption]
  places := [⟨"plugins", .many, []⟩]

/-- A command without arguments. -/
def bareGrammar : Grammar where
  options := [helpOption]
  places := []

/-- Laying out plugins. -/
def formatGrammar : Grammar where
  options := [helpOption, setOption ["--check"], setOption ["--diff"]]
  places := [⟨"files", .many, []⟩]

/-- Linting files. -/
def lintGrammar : Grammar where
  options := [helpOption, setOption ["--fix"]]
  places := [⟨"files", .atLeastOne, []⟩]

/-! ## Reading -/

/-- `_parse_codes`: the codes in a list with commas between them. -/
def codesOf (s : String) : List String := ((Text.pieces ',' s).map Text.trimmed).filter (· != "")

/-- The codes that an option gives. -/
def Parsed.codes (p : Parsed) (key : String) : List String := codesOf ((p.value? key).getD "")

/-- The paths in a place. -/
def Parsed.paths (p : Parsed) (key : String) : List Pathname := (p.all key).map Pathname.ofString

/-- The path that an option gives. -/
def Parsed.path? (p : Parsed) (key : String) : Option Pathname :=
  (p.value? key).map Pathname.ofString

/-- The arguments for building. -/
def BuildArguments.ofParsed (p : Parsed) : BuildArguments where
  source := p.path? "--source"
  output := p.path? "--output"
  names := p.all "plugins"
  install := p.has "--install"
  hardlink := p.has "--hardlink"
  dryRun := p.has "--dry-run"
  verbose := !p.has "--quiet"

/-- The arguments for checking. -/
def CheckArguments.ofParsed (p : Parsed) : CheckArguments where
  fix := p.has "--fix"
  dryRun := p.has "--dry-run"
  ignore := p.codes "--ignore"
  fixable := p.codes "--fixable"
  unfixable := p.codes "--unfixable"
  error := p.codes "--error"
  strict := p.has "--strict"
  files := p.paths "files"

/-- The arguments for laying out. -/
def FormatArguments.ofParsed (p : Parsed) : FormatArguments where
  check := p.has "--check"
  diff := p.has "--diff"
  files := p.paths "files"

/-- The arguments for counting. -/
def StatsArguments.ofParsed (p : Parsed) : StatsArguments where
  file := .ofString (p.first "file")
  json := p.has "--json"
  verbose := p.has "--verbose"

/-- The arguments for changing formats. -/
def ConvertArguments.ofParsed (p : Parsed) : ConvertArguments where
  source := .ofString (p.first "src")
  target := .ofString (p.first "dest")
  sourceFormat := p.value? "--from"
  targetFormat := p.value? "--to"
  dryRun := p.has "--dry-run"

/-- The arguments for changing encodings. An empty name of an encoding counts as none. -/
def EncodingArguments.ofParsed (p : Parsed) : EncodingArguments where
  target := p.first "target"
  file := .ofString (p.first "file")
  output := p.path? "--output"
  source := (p.value? "--source").filter (· != "")

/-- A command of the whole command line, if no word is left over. -/
def complete {α : Type} (read : Except Stop (α × List String)) : Except Stop α := do
  let (a, extra) ← read
  if extra.isEmpty then return a else .error .usage

/-- Reads a command with the grammar; with it the words that are left over. -/
def readWith {α : Type} (g : Grammar) (f : Parsed → α) (args : List String) :
    Except Stop (α × List String) := do
  let p ← g.parse args
  return (f p, p.extra)

/-- Reads a command for plugins; with it the words that are left over. -/
def PluginCommand.read (args : List String) : Except Stop (PluginCommand × List String) := do
  let p ← pluginGrammar.parse args
  let (name, args) := p.command.getD ("", [])
  let (c, extra) ← match name with
    | "build" => readWith buildGrammar (fun p => .build (.ofParsed p)) args
    | "check" => readWith checkGrammar (fun p => .check (.ofParsed p)) args
    | "install" =>
      readWith installGrammar (fun p => .install (p.all "plugins") (p.has "--dry-run")) args
    | "list" => readWith bareGrammar (fun _ => .list) args
    | "show-plugin-dir" => readWith bareGrammar (fun _ => .showDirectory) args
    | _ => readWith formatGrammar (fun p => .format (.ofParsed p)) args
  return (c, p.extra ++ extra)

/-- Reads a command; with it the words that are left over. -/
def Command.read (args : List String) : Except Stop (Command × List String) := do
  let p ← mainGrammar.parse args
  match p.command with
  | none => return (.help, p.extra)
  | some (name, args) =>
    let (c, extra) ← match name with
      | "convert" => readWith convertGrammar (fun p => .convert (.ofParsed p)) args
      | "stats" => readWith statsGrammar (fun p => .stats (.ofParsed p)) args
      | "encoding" => readWith encodingGrammar (fun p => .encoding (.ofParsed p)) args
      | _ => (PluginCommand.read args).map fun (c, extra) => (.plugins c, extra)
    return (c, p.extra ++ extra)

end Partitura.Cli
