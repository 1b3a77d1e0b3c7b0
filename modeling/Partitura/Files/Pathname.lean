import Partitura.Text.LowerCase
import Partitura.Text.Search

/-!
# Paths

A path is a list of names, from the root or from the current directory. Empty names and single dots
are left out; two dots are kept, because they mean something only where the directories are known.
Two slashes in front are kept apart from one, as a root that is written in its own way; more than
two count as one.
-/

namespace Partitura.Files

/-- A path: the slashes in front, none for a path from the current directory, and the names. -/
structure Pathname where
  slashes : Nat
  parts : List String
deriving DecidableEq, Repr

namespace Pathname

/-- Whether a path starts at the root. -/
def absolute (p : Pathname) : Bool := p.slashes != 0

/-- The path from the root by these names. -/
def fromRoot (parts : List String) : Pathname := ⟨1, parts⟩

/-- The path that is written so. -/
def ofString (s : String) : Pathname :=
  let n := (s.toList.takeWhile (· == '/')).length
  ⟨if 2 < n then 1 else n, (Text.pieces '/' s).filter fun p => p != "" && p != "."⟩

/-- A path as it is written. -/
def render (p : Pathname) : String :=
  if !p.absolute && p.parts.isEmpty then "."
  else String.ofList (List.replicate p.slashes '/') ++ Text.join "/" p.parts

/-- The path `q` seen from the directory `p`. -/
def append (p q : Pathname) : Pathname :=
  if q.absolute then q else { p with parts := p.parts ++ q.parts }

/-- A name in the directory `p`. -/
def child (p : Pathname) (name : String) : Pathname := { p with parts := p.parts ++ [name] }

/-- The path without its last name. -/
def parent (p : Pathname) : Pathname := { p with parts := p.parts.dropLast }

/-- The last name, or nothing. -/
def name (p : Pathname) : String := p.parts.getLastD ""

/-- The offset of the last dot of a name, which is neither its first nor its last character. -/
def suffixAt? (name : List Char) : Option Nat :=
  let tail := name.reverse.takeWhile (· != '.')
  let n := name.length - tail.length
  if tail.isEmpty || n < 2 then none else some (n - 1)

/-- The last name without what follows its last dot. -/
def stem (p : Pathname) : String :=
  match suffixAt? p.name.toList with
  | some n => String.ofList (p.name.toList.take n)
  | none => p.name

/-- The path with another end of its last name, in the place of the last dot and what follows it; a
path without a name has none. -/
def withSuffix? (p : Pathname) (suffix : String) : Option Pathname :=
  if p.parts.isEmpty then none else some (p.parent.child (p.stem ++ suffix))

/-- The order of paths: name by name. -/
def le (p q : Pathname) : Bool := !(q.parts < p.parts)

end Pathname

end Partitura.Files
