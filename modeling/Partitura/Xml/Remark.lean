/-!
# Remarks on documents

Besides what makes a document malformed there are lesser things to be said about it: that a
namespace is not declared, that an identifier stands twice. Reading goes on after them, and the last
remark decides: a document whose last remark is a fault is refused, one whose last remark is a
warning is not. Main definitions: `Reading`, what is read together with the remarks that were made
on the way, and `isAccepted`.
-/

namespace Partitura.Xml

/-- A remark on a document that is well-formed so far. -/
inductive Remark where
  | warning
  | fault
deriving DecidableEq, Repr

/-- Something read, with the remarks so far, the last one first; nothing if the document is
malformed. -/
abbrev Reading := StateT (List Remark) Option

/-- Makes a remark. -/
def note (r : Remark) : Reading Unit := modify (r :: ·)

/-- Makes a remark if there is a reason for it. -/
def noteIf (reason : Bool) (r : Remark) : Reading Unit := if reason then note r else pure ()

/-- How many remarks of a kind are taken notice of. -/
def remarkLimit : Nat := 100

/-- The last remark that is taken notice of; `warnings` and `faults` count those before, and `last`
is the last of them. -/
def lastRemark (warnings faults : Nat) (last : Option Remark) : List Remark → Option Remark
  | [] => last
  | .warning :: r =>
    if warnings < remarkLimit then lastRemark (warnings + 1) faults (some .warning) r
    else lastRemark warnings faults last r
  | .fault :: r =>
    if faults < remarkLimit then lastRemark warnings (faults + 1) (some .fault) r
    else lastRemark warnings faults last r

/-- Whether a document with these remarks, the last one first, is accepted. -/
def isAccepted (remarks : List Remark) : Bool := lastRemark 0 0 none remarks.reverse != some .fault

end Partitura.Xml
