import Partitura.Files.Pathname
import Partitura.Codec.Unicode
import Partitura.Text.Quoted

/-!
# File trees

Names of directories and files with the bytes of the files. Several names may stand for one file:
what is written under one of them is read under all.
-/

namespace Partitura.Files

/-- A place in the tree: the names that lead there from the root. -/
abbrev Location := List String

/-- What stands at a place: a directory, or one of the files by its number. -/
inductive Entry where
  | directory
  | file (id : Nat)
deriving DecidableEq, Repr

/-- A tree: its places, and the bytes of its files. -/
structure FileTree where
  entries : List (Location × Entry)
  contents : List (List UInt8)
deriving DecidableEq, Repr

/-- Why something cannot be done with a path. -/
inductive FileFault where
  | notFound
  | isDirectory
  | notDirectory
  | alreadyThere
  | nameTooLong
  | notPermitted
  | nullCharacter
deriving DecidableEq, Repr

/-- The number of a fault in the system. -/
def FileFault.number : FileFault → Nat
  | notPermitted => 1
  | notFound => 2
  | alreadyThere => 17
  | notDirectory => 20
  | isDirectory => 21
  | nameTooLong => 36
  | nullCharacter => 0

/-- The words for a fault. -/
def FileFault.words : FileFault → String
  | notPermitted => "Operation not permitted"
  | notFound => "No such file or directory"
  | alreadyThere => "File exists"
  | notDirectory => "Not a directory"
  | isDirectory => "Is a directory"
  | nameTooLong => "File name too long"
  | nullCharacter => "embedded null byte"

/-- How a fault is told for a path. -/
def FileFault.message (f : FileFault) (p : Pathname) : String :=
  match f with
  | nullCharacter => f.words
  | f => "[Errno " ++ toString f.number ++ "] " ++ f.words ++ ": " ++ Text.quoted p.render

/-- How many bytes a name may have. -/
def longestName : Nat := 255

namespace FileTree

/-- The tree of the root alone. -/
def empty : FileTree := ⟨[], []⟩

/-- What stands at a place; the root is a directory. -/
def entry? (t : FileTree) (l : Location) : Option Entry :=
  if l = [] then some .directory else t.entries.lookup l

/-- The bytes of a file. -/
def bytesOf (t : FileTree) (id : Nat) : List UInt8 := t.contents.getD id []

/-- The place that the names lead to from `l`. All places on the way have to be directories. -/
def walk (t : FileTree) (l : Location) : List String → Except FileFault Location
  | [] => .ok l
  | n :: ns =>
    match t.entry? l with
    | none => .error .notFound
    | some (.file _) => .error .notDirectory
    | some .directory =>
      if n = ".." then t.walk l.dropLast ns
      else if longestName < (Codec.encodeUtf8 n.toList).length then .error .nameTooLong
      else t.walk (l ++ [n]) ns

/-- The place of a path for one who stands at `cwd`. -/
def locate (t : FileTree) (cwd : Location) (p : Pathname) : Except FileFault Location :=
  if p.parts.any fun n => n.toList.contains '\x00' then .error .nullCharacter
  else t.walk (if p.absolute then [] else cwd) p.parts

/-- What stands at a path; a path that leads nowhere has nothing. -/
def find? (t : FileTree) (cwd : Location) (p : Pathname) : Except FileFault (Option Entry) :=
  match t.locate cwd p with
  | .ok l => .ok (t.entry? l)
  | .error .nameTooLong => .error .nameTooLong
  | .error _ => .ok none

/-- Reads a file. -/
def read (t : FileTree) (cwd : Location) (p : Pathname) : Except FileFault (List UInt8) := do
  match t.entry? (← t.locate cwd p) with
  | none => .error .notFound
  | some .directory => .error .isDirectory
  | some (.file id) => .ok (t.bytesOf id)

/-- The tree with one more place. -/
def put (t : FileTree) (l : Location) (e : Entry) : FileTree :=
  { t with entries := t.entries ++ [(l, e)] }

/-- The tree with a new file. -/
def create (t : FileTree) (l : Location) (bs : List UInt8) : FileTree :=
  ⟨t.entries ++ [(l, .file t.contents.length)], t.contents ++ [bs]⟩

/-- Writes a file, under all its names. -/
def write (t : FileTree) (cwd : Location) (p : Pathname) (bs : List UInt8) :
    Except FileFault FileTree := do
  let l ← t.locate cwd p
  match t.entry? l with
  | none => .ok (t.create l bs)
  | some .directory => .error .isDirectory
  | some (.file id) => .ok { t with contents := t.contents.set id bs }

/-- Makes the directories that the names lead through from `l`, where they are missing. -/
def makeAll (t : FileTree) (l : Location) : List String → Except FileFault FileTree
  | [] => .ok t
  | n :: ns =>
    if n = ".." then t.makeAll l.dropLast ns
    else if longestName < (Codec.encodeUtf8 n.toList).length then .error .nameTooLong
    else match t.entry? (l ++ [n]) with
      | some .directory => t.makeAll (l ++ [n]) ns
      | none => (t.put (l ++ [n]) .directory).makeAll (l ++ [n]) ns
      | some (.file _) => .error (if ns.isEmpty then .alreadyThere else .notDirectory)

/-- Makes a directory and those above it. -/
def makeDirectory (t : FileTree) (cwd : Location) (p : Pathname) : Except FileFault FileTree :=
  if p.parts.any fun n => n.toList.contains '\x00' then .error .nullCharacter
  else t.makeAll (if p.absolute then [] else cwd) p.parts

/-- The names in the directory at a place. -/
def namesIn (t : FileTree) (l : Location) : List String :=
  t.entries.filterMap fun (m, _) => if m.dropLast = l then m.getLast? else none

/-- The names in a directory. -/
def list (t : FileTree) (cwd : Location) (p : Pathname) : Except FileFault (List String) := do
  let l ← t.locate cwd p
  match t.entry? l with
  | none => .error .notFound
  | some (.file _) => .error .notDirectory
  | some .directory => .ok (t.namesIn l)

/-- Removes a name of a file. -/
def remove (t : FileTree) (cwd : Location) (p : Pathname) : Except FileFault FileTree := do
  let l ← t.locate cwd p
  match t.entry? l with
  | none => .error .notFound
  | some .directory => .error .isDirectory
  | some (.file _) => .ok { t with entries := t.entries.filter fun e => e.1 != l }

/-- Gives a file a second name. -/
def link (t : FileTree) (cwd : Location) (old new : Pathname) : Except FileFault FileTree := do
  let from_ ← t.locate cwd old
  let to_ ← t.locate cwd new
  match t.entry? from_, t.entry? to_ with
  | none, _ => .error .notFound
  | some _, some _ => .error .alreadyThere
  | some .directory, none => .error .notPermitted
  | some (.file id), none => .ok (t.put to_ (.file id))

/-- Adds a file with the directories above it, as far as they are missing. -/
def addFile (t : FileTree) (cwd : Location) (p : Pathname) (bs : List UInt8) :
    Except FileFault FileTree := do
  (← t.makeDirectory cwd p.parent).write cwd p bs

/-- The files, by their places. -/
def files (t : FileTree) : List (Location × List UInt8) :=
  t.entries.filterMap fun (l, e) =>
    match e with
    | .file id => some (l, t.bytesOf id)
    | .directory => none

end FileTree

end Partitura.Files
