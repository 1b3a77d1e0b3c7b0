import Partitura.Text.Class
import Partitura.Text.Search
import Partitura.Text.Trim

/-!
# Signatures in the manual

A signature is the name of a method with its parameters in parentheses; parameters in square
brackets may be left out, and their names get a question mark.
-/

namespace Partitura.ManuScript

/-- `MethodSignature`: the parameters of a method, and how many arguments it takes. -/
structure Signature where
  params : List String
  least : Nat
  most : Nat
deriving DecidableEq, Repr

namespace Signature

/-- What was read of a list of parameters: the names, how many of them stand before the first
bracket after a name, the depth of brackets, and the name that is being read. -/
structure Progress where
  params : List String
  required : Nat
  depth : Nat
  current : List Char
deriving DecidableEq, Repr

/-- Ends the current name, with the mark at its end; a blank name goes on. -/
def Progress.finish (s : Progress) (mark : String) : Progress :=
  let name := Text.trim s.current
  if name.isEmpty then s
  else { s with params := s.params ++ [String.ofList name ++ mark], current := [] }

/-- The mark of a name inside brackets. -/
def Progress.mark (s : Progress) : String := if 0 < s.depth then "?" else ""

/-- Reads one character. A name before an opening bracket has no mark. -/
def Progress.step (s : Progress) (c : Char) : Progress :=
  match c with
  | '[' =>
    let t := { s with depth := s.depth + 1 }.finish ""
    if s.depth = 0 && s.params.length < t.params.length then { t with required := t.params.length }
    else t
  | ']' => { s with depth := s.depth - 1 }.finish "?"
  | ',' => s.finish s.mark
  | c => { s with current := s.current ++ [c] }

/-- The signature of a list of parameters. -/
def ofParams (cs : List Char) : Signature :=
  let s := cs.foldl Progress.step ⟨[], 0, 0, []⟩
  let params := (s.finish s.mark).params
  let unmarked := (params.filter fun p => !Text.hasEnd p "?").length
  ⟨params, if s.required = 0 then unmarked else s.required, params.length⟩

/-- An upper-case ASCII letter. -/
def isCapital (c : Char) : Bool := 'A' ≤ c && c ≤ 'Z'

/-- `parse_signature`: the name and the signature of a method, from its line in the manual. -/
def ofLine? (line : List Char) : Option (String × Signature) :=
  match Text.trim line with
  | [] => none
  | c :: r =>
    let name := r.takeWhile Text.isNameChar
    match r.drop name.length with
    | '(' :: rest =>
      let inner := rest.takeWhile (· != ')')
      if isCapital c && rest.drop inner.length == [')'] then
        some (String.ofList (c :: name), ofParams (Text.trim inner))
      else none
    | _ => none

end Signature

end Partitura.ManuScript
