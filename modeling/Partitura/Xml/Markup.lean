import Partitura.Xml.Character

/-!
# XML markup

The pieces of a document, read from the front of a text: tags with their attributes, text,
references, comments and instructions. Values of attributes stand as they are written, and how the
pieces nest is not looked at.
-/

namespace Partitura.Xml

/-- A piece of a document. -/
inductive Markup where
  /-- A tag with its attributes, whose values are as written; `closed` if it closes its element
  too. -/
  | opening (name : List Char) (attributes : List (List Char × List Char)) (closed : Bool)
  | closing (name : List Char)
  /-- Text that stands in the document as it is. -/
  | text (content : List Char)
  /-- Text in which nothing is markup. -/
  | verbatim (content : List Char)
  /-- A character by its code. -/
  | character (c : Char)
  | entity (name : List Char)
  | comment
  | instruction (target : List Char)
deriving DecidableEq, Repr

/-- The attributes of a tag, whether it closes its element too, and what follows the tag. Every
attribute has white space before it. -/
def attributes? (fuel : Nat) (cs : List Char) :
    Option (List (List Char × List Char) × Bool × List Char) :=
  match fuel with
  | 0 => none
  | fuel + 1 =>
    match skipSpace cs with
    | '>' :: r => some ([], false, r)
    | '/' :: '>' :: r => some ([], true, r)
    | _ => do
      let (name, rest) ← name? (← space? cs)
      let rest ← Text.stripStart? ['='] (skipSpace rest)
      let (value, rest) ← quoted? (skipSpace rest)
      let (more, closed, rest) ← attributes? fuel rest
      return ((name, value) :: more, closed, rest)

/-- What follows a comment, after its first four characters. Two hyphens only stand at its end. -/
def comment? (cs : List Char) : Option (List Char) := do
  let (_, rest) ← upTo? ['-', '-'] cs
  Text.stripStart? ['>'] rest

/-- The target of a processing instruction and what follows it, after its first two characters. The
target `xml` is kept for the declaration of a document. -/
def instruction? (cs : List Char) : Option (List Char × List Char) := do
  let (target, rest) ← name? cs
  if String.ofList (target.map Char.toLower) = "xml" then none
  match Text.stripStart? ['?', '>'] rest with
  | some rest => return (target, rest)
  | none =>
    let (_, rest) ← upTo? ['?', '>'] (← space? rest)
    return (target, rest)

/-- A reference as a piece. -/
def Chunk.markup : Chunk → Markup
  | .literal c => .text [c]
  | .character c => .character c
  | .entity name => .entity name

/-- The piece at the front, and what follows. -/
def markup? (cs : List Char) : Option (Markup × List Char) :=
  match cs with
  | [] => none
  | '<' :: '/' :: r => do
    let (name, rest) ← name? r
    let rest ← Text.stripStart? ['>'] (skipSpace rest)
    return (.closing name, rest)
  | '<' :: '?' :: r => (instruction? r).map fun (target, rest) => (.instruction target, rest)
  | '<' :: '!' :: r =>
    match Text.stripStart? ['-', '-'] r with
    | some r => (comment? r).map (Markup.comment, ·)
    | none => do
      let r ← Text.stripStart? "[CDATA[".toList r
      let (content, rest) ← upTo? [']', ']', '>'] r
      return (.verbatim content, rest)
  | '<' :: r => do
    let (name, rest) ← name? r
    let (attributes, closed, rest) ← attributes? (rest.length + 1) rest
    return (.opening name attributes closed, rest)
  | '&' :: r => do
    let (body, rest) ← upTo? [';'] r
    return ((← reference? body).markup, rest)
  | c :: r =>
    let stops (c : Char) : Bool := c == '<' || c == '&'
    let content := c :: r.takeWhile (!stops ·)
    if Text.occursIn [']', ']', '>'] content then none
    else some (.text content, r.dropWhile (!stops ·))

/-- All pieces of a text. -/
def markups? (fuel : Nat) (cs : List Char) : Option (List Markup) :=
  match fuel, cs with
  | _, [] => some []
  | 0, _ => none
  | fuel + 1, cs => do
    let (piece, rest) ← markup? cs
    return piece :: (← markups? fuel rest)

/-- The pieces of a whole text. -/
def piecesOf? (cs : List Char) : Option (List Markup) := markups? cs.length cs

/-- Whether pieces make up a document: one element, around which there is nothing but white space,
comments and instructions. The pieces stand inside `depth` elements, and `rooted` tells whether the
one element has come. -/
def isEnveloped (depth : Nat) (rooted : Bool) : List Markup → Bool
  | [] => depth == 0 && rooted
  | .opening _ _ closed :: r =>
    !(depth == 0 && rooted) && isEnveloped (if closed then depth else depth + 1) true r
  | .closing _ :: r => depth != 0 && isEnveloped (depth - 1) rooted r
  | .text content :: r => (depth != 0 || content.all isSpace) && isEnveloped depth rooted r
  | .comment :: r => isEnveloped depth rooted r
  | .instruction _ :: r => isEnveloped depth rooted r
  | .verbatim _ :: r => depth != 0 && isEnveloped depth rooted r
  | .character _ :: r => depth != 0 && isEnveloped depth rooted r
  | .entity _ :: r => depth != 0 && isEnveloped depth rooted r

end Partitura.Xml
