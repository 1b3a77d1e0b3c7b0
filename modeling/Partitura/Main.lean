import Partitura.Cli.Programs

/-!
# The program

The outer layer: it gathers the files that a command line may be about into a tree, runs the command
on it, and carries out what has changed.
-/

namespace Partitura.Main

open Cli Files

/-- The names that lead to a path that is written from the root. -/
def locationOf (path : String) : Location := (Pathname.ofString path).parts

/-- Adds what stands at a path: a file with its bytes, or a directory; of a directory also the
plugins in it, `depth` levels down. -/
def gather (depth : Nat) (t : FileTree) (path : String) : IO FileTree := do
  let place := (← IO.currentDir) / path
  if ← place.isDir then
    let t := (t.makeDirectory [] (.ofString place.toString)).toOption.getD t
    match depth with
    | 0 => return t
    | depth + 1 =>
      (← place.readDir).toList.foldlM (fun t entry => do
        let inner := (place / entry.fileName).toString
        if (← (place / entry.fileName).isDir) || Text.hasEnd entry.fileName Build.pluginSuffix then
          gather depth t inner
        else return t) t
  else if ← place.pathExists then
    let bs := (← IO.FS.readBinFile place).toList
    return (t.addFile [] (.ofString place.toString) bs).toOption.getD t
  else return t

/-- Adds the files and directories that the words of a command line may name, and the directories
that they would stand in. -/
def gatherAll (t : FileTree) (words : List String) : IO FileTree :=
  words.foldlM (fun t w => do
    let path := String.ofList ((cutValue w.toList).2.getD w.toList)
    gather 2 (← gather 0 t (Pathname.ofString path).parent.render) path) t

/-- Adds the configurations of a directory and of those above it. -/
def gatherConfigurations (t : FileTree) (cwd : Location) : IO FileTree :=
  (List.range (cwd.length + 1)).foldlM (fun t n => do
    let dir := Pathname.fromRoot (cwd.take n)
    gather 0 (← gather 0 t (dir.child Config.ownFile).render) (dir.child Config.sharedFile).render)
      t

/-- Carries out the changes from one tree to another: what is gone or stands for another file now is
removed, then directories and files are written, and at last the further names of files are linked.
A file has its bytes under the name that has stood for it the longest, which comes first in the
tree. -/
def carryOut (before after : FileTree) : IO Unit := do
  let here ← IO.currentDir
  let place (l : Location) := here / (Pathname.fromRoot l).render
  for (l, _) in before.files do
    if before.entry? l != after.entry? l then IO.FS.removeFile (place l)
  let firstName (e : Entry) := ((after.entries.find? (·.2 == e)).map (·.1)).getD []
  for (l, e) in after.entries do
    match e with
    | .directory => if (before.entry? l).isNone then IO.FS.createDirAll (place l)
    | .file id =>
      let changed := before.entry? l != some e || before.bytesOf id != after.bytesOf id
      if changed && firstName e == l then
        IO.FS.createDirAll (place l.dropLast)
        IO.FS.writeBinFile (place l) ⟨(after.bytesOf id).toArray⟩
  for (l, e) in after.entries do
    if e != .directory && before.entry? l != some e && firstName e != l then
      IO.FS.hardLink (place (firstName e)) (place l)

/-- The kind of system, by what is special to each. -/
def systemKind : IO OperatingSystem := do
  if ← ((← IO.currentDir) / "/System/Library").isDir then return .mac
  else if (← IO.getEnv "APPDATA").isSome then return .windows
  else return .other

/-- Where the program runs. -/
def currentSetting : IO Setting := do
  return {
    cwd := locationOf (← IO.currentDir).toString
    home := .ofString ((← IO.getEnv "HOME").getD "/")
    system := ← systemKind
    bundle := (Pathname.ofString (← IO.appDir).toString).child "plugins"
    engraver := none }

/-- Tells how a run ended, and gives the exit code. -/
def report (ending : Ending) : IO UInt32 := do
  match ending with
  | .code n => return n.toUInt32
  | .stopped why => return why.code.toUInt32
  | .failed why =>
    IO.eprintln why.message
    return 1

end Partitura.Main

open Partitura Cli Files in
/-- Runs the program. -/
def main (args : List String) : IO UInt32 := do
  let s ← Main.currentSetting
  let t ← Main.gather 0 .empty "."
  let t ← Main.gatherConfigurations t s.cwd
  let t ← Main.gatherAll t (((Build.pluginDirectory? s).map Pathname.render).toList ++ args)
  let t := (withBundle t s.bundle).toOption.getD t
  let (ending, desk) := mainProgram s args { files := t }
  IO.print desk.out
  IO.eprint desk.err
  Main.carryOut t desk.files
  Main.report ending
