/-!
# Finding, splitting and replacing

Searches of one text in another over characters, and what is built on them: cutting at a separator,
replacing every occurrence from the left.
-/

namespace Partitura.Text

/-- What is left of `cs` after the leading `w`, if `cs` starts with it. -/
def stripStart? (w cs : List Char) : Option (List Char) :=
  match w, cs with
  | [], r => some r
  | _ :: _, [] => none
  | a :: w, c :: r => if a == c then stripStart? w r else none

/-- Whether `w` stands somewhere in `cs`. -/
def occursIn (w : List Char) : List Char → Bool
  | [] => w.isEmpty
  | c :: r => w.isPrefixOf (c :: r) || occursIn w r

/-- The offset of the first occurrence of `w` in `cs`. -/
def indexOf? (w : List Char) : List Char → Option Nat
  | [] => if w.isEmpty then some 0 else none
  | c :: r => if w.isPrefixOf (c :: r) then some 0 else (indexOf? w r).map (· + 1)

/-- The pieces between the separators; one more piece than separators. -/
def splitOn (sep : Char) : List Char → List (List Char)
  | [] => [[]]
  | c :: r =>
    if c == sep then [] :: splitOn sep r
    else match splitOn sep r with
      | [] => [[c]]
      | p :: ps => (c :: p) :: ps

/-- The pieces with `sep` between them. -/
def joinWith (sep : List Char) : List (List Char) → List Char
  | [] => []
  | [p] => p
  | p :: q :: ps => p ++ sep ++ joinWith sep (q :: ps)

/-- Replaces every occurrence of the character by the text. -/
def replaceChar (c : Char) (w : List Char) (cs : List Char) : List Char :=
  cs.flatMap fun d => if d == c then w else [d]

/-- Whether the string `w` stands somewhere in `s`. -/
def contains (s w : String) : Bool := occursIn w.toList s.toList

/-- Whether `s` starts with `w`. -/
def hasStart (s w : String) : Bool := w.toList.isPrefixOf s.toList

/-- Whether `s` ends with `w`. -/
def hasEnd (s w : String) : Bool := w.toList.isSuffixOf s.toList

/-- The strings between the separators. -/
def pieces (sep : Char) (s : String) : List String := (splitOn sep s.toList).map String.ofList

/-- The strings with the separator between them. -/
def join (sep : String) (ss : List String) : String := sep.intercalate ss

end Partitura.Text
