import Partitura.Codec.Encoding
import Partitura.Config.Settings
import Partitura.Config.Toml
import Partitura.Files.FileTree
import Partitura.Text.Lines

/-!
# Finding a configuration

The configuration of a directory is in the nearest directory on the way up that has one: a file of
its own, or a part of the file that all tools share. A file that cannot be read is no reason to
stop.
-/

namespace Partitura.Config

open Files

/-- The name of the file that holds nothing else. -/
def ownFile : String := "mahlif.toml"

/-- The name of the file that all tools share. -/
def sharedFile : String := "pyproject.toml"

/-- The name of the part for this tool. -/
def toolName : String := "mahlif"

/-- The table of a file, if it can be read and is well formed. -/
def readTable? (t : FileTree) (cwd : Location) (p : Pathname) : Option (List (String × Value)) := do
  let bs ← (t.read cwd p).toOption
  let cs ← (Codec.Encoding.utf8.decode bs).toOption
  Toml.parse? (Text.readLineEnds cs)

/-- Whether the shared file has a part for this tool. -/
def hasPart (t : FileTree) (cwd : Location) (p : Pathname) : Bool :=
  match readTable? t cwd p with
  | some ms => (ms.lookup "tool").any (·.mentions toolName)
  | none => false

/-- The configuration in a directory. -/
def inDirectory? (t : FileTree) (dir : Location) : Option Pathname :=
  let own := (Pathname.fromRoot dir).child ownFile
  let shared := (Pathname.fromRoot dir).child sharedFile
  if (t.entry? own.parts).isSome then some own
  else if hasPart t [] shared then some shared
  else none

/-- The configuration in a directory or above it; the directory is given by its names, the last one
first. -/
def findUp? (t : FileTree) : List String → Option Pathname
  | [] => inDirectory? t []
  | n :: above => (inDirectory? t (n :: above).reverse).or (findUp? t above)

/-- `find_config_file`: the configuration that holds for one who stands at `cwd`. -/
def find? (t : FileTree) (cwd : Location) : Option Pathname := findUp? t cwd.reverse

/-- The table under a key, empty if it is missing. -/
def tableUnder (key : String) (ms : List (String × Value)) :
    Except SettingsFault (List (String × Value)) :=
  match ms.lookup key with
  | none => .ok []
  | some (.table ms) => .ok ms
  | some v => .error (.noTable v.kind)

/-- The settings in a file; in the shared file they are in the part for this tool. -/
def load (t : FileTree) (cwd : Location) (p : Pathname) : Except SettingsFault LintSettings :=
  match readTable? t cwd p with
  | none => .ok {}
  | some ms =>
    if p.name = sharedFile then do
      let tool ← tableUnder "tool" ms
      LintSettings.ofConfiguration (← tableUnder toolName tool)
    else LintSettings.ofConfiguration ms

/-- `load_config`: the settings that hold for one who stands at `cwd`. -/
def settings (t : FileTree) (cwd : Location) : Except SettingsFault LintSettings :=
  match find? t cwd with
  | none => .ok {}
  | some p => load t cwd p

end Partitura.Config
