import Partitura.Text.Search

/-!
# References to resources

The names of namespaces and the places of external entities are written as references to resources:
a scheme and a colon, or none for a reference that is relative, then an authority and a path, a
query and a fragment. Only ASCII characters and escapes of a percent sign and two hexadecimal digits
stand in them.
-/

namespace Partitura.Xml

/-- What matters of a reference to a resource. -/
structure UriReference where
  /-- Whether it starts with a scheme. -/
  absolute : Bool
  /-- Whether it ends with a fragment. -/
  fragment : Bool
deriving DecidableEq, Repr

namespace Uri

/-- A hexadecimal digit. -/
def isHex (c : Char) : Bool := c.isDigit || ('a' ≤ c && c ≤ 'f') || ('A' ≤ c && c ≤ 'F')

/-- Characters of names: those without a meaning of their own, and those that only set parts
apart. -/
def isPlain (c : Char) : Bool := c.isAlphanum || "-._~!$&'()*+,;=".toList.contains c

/-- Characters of a path between its slashes. -/
def isSegment (c : Char) : Bool := isPlain c || c == ':' || c == '@'

/-- Characters of a path. -/
def isPath (c : Char) : Bool := isSegment c || c == '/'

/-- Drops the characters that are asked for, and escapes. -/
def skip (p : Char → Bool) : List Char → List Char
  | '%' :: a :: b :: r => if isHex a && isHex b then skip p r else '%' :: a :: b :: r
  | c :: r => if p c then skip p r else c :: r
  | [] => []

/-- The largest number of a service at a host. -/
def lastService : Nat := 2147483647

/-- What follows the number of a service. -/
def afterService? (cs : List Char) : Option (List Char) :=
  let ds := cs.takeWhile Char.isDigit
  let n := ds.foldl (fun n d => 10 * n + (d.toNat - 48)) 0
  if ds.isEmpty || lastService < n then none else some (cs.dropWhile Char.isDigit)

/-- What follows a host, which may stand in square brackets. -/
def afterHost? : List Char → Option (List Char)
  | '[' :: r =>
    match r.dropWhile (· != ']') with
    | _ :: r => some r
    | [] => none
  | r => some (skip isPlain r)

/-- What follows an authority: someone at a host, and the number of a service. -/
def afterAuthority? (cs : List Char) : Option (List Char) := do
  let host := match skip (fun c => isPlain c || c == ':') cs with
    | '@' :: r => r
    | _ => cs
  match ← afterHost? host with
  | ':' :: r => afterService? r
  | r => some r

/-- What follows a path that goes on with a slash, or is empty. -/
def afterAbsolutePath : List Char → List Char
  | '/' :: r => skip isPath r
  | r => r

/-- What follows the authority and the path of a reference with a scheme. -/
def afterHierarchy? : List Char → Option (List Char)
  | '/' :: '/' :: r => (afterAuthority? r).map afterAbsolutePath
  | r => some (skip isPath r)

/-- What follows the authority and the path of a relative reference, in which no colon stands before
the first slash. -/
def afterRelative? (cs : List Char) : Option (List Char) :=
  match cs with
  | '/' :: _ => afterHierarchy? cs
  | ':' :: _ => none
  | _ => some (afterAbsolutePath (skip (fun c => isSegment c && c != ':') cs))

/-- The end of a reference: a query and a fragment, and nothing after them. -/
def ending? (absolute : Bool) (cs : List Char) : Option UriReference :=
  let rest := match cs with
    | '?' :: r => skip (fun c => isPath c || c == '?') r
    | r => r
  match rest with
  | [] => some ⟨absolute, false⟩
  | '#' :: r =>
    if (skip (fun c => isPath c || c == '?' || c == '[' || c == ']') r).isEmpty then
      some ⟨absolute, true⟩ else none
  | _ => none

/-- What follows a scheme and its colon. -/
def afterScheme? : List Char → Option (List Char)
  | [] => none
  | c :: r =>
    if c.isAlpha then
      Text.stripStart? [':'] (r.dropWhile fun c => c.isAlphanum || c == '+' || c == '-' || c == '.')
    else none

end Uri

/-- Reads a reference to a resource: with a scheme if that is possible, and relative otherwise. -/
def uriReference? (cs : List Char) : Option UriReference :=
  ((Uri.afterScheme? cs).bind Uri.afterHierarchy?).bind (Uri.ending? true) |>.or
    ((Uri.afterRelative? cs).bind (Uri.ending? false))

end Partitura.Xml
