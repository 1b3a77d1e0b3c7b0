import Partitura.Text.Search

/-!
# Characters, names and references of XML

What may stand in a document, what names are made of, and the references that stand for a character
or an entity.
-/

namespace Partitura.Xml

/-! ## Characters -/

/-- White space between parts of markup. -/
def isSpace (c : Char) : Bool := c == ' ' || c == '\t' || c == '\n' || c == '\r'

/-- A character that may stand in a document. -/
def isAllowed (c : Char) : Bool :=
  let n := c.toNat
  n == 9 || n == 10 || n == 13 || (32 ≤ n && n != 0xFFFE && n != 0xFFFF)

/-- Ranges of characters, beyond ASCII, that start a name. -/
def nameStartRanges : List (Nat × Nat) :=
  [(0xC0, 0xD6), (0xD8, 0xF6), (0xF8, 0x2FF), (0x370, 0x37D), (0x37F, 0x1FFF), (0x200C, 0x200D),
    (0x2070, 0x218F), (0x2C00, 0x2FEF), (0x3001, 0xD7FF), (0xF900, 0xFDCF), (0xFDF0, 0xFFFD),
    (0x10000, 0xEFFFF)]

/-- A character that starts a name. -/
def isNameStart (c : Char) : Bool :=
  c.isAlpha || c == '_' || c == ':' || nameStartRanges.any fun r => r.1 ≤ c.toNat && c.toNat ≤ r.2

/-- A character of a name after its first. -/
def isNameChar (c : Char) : Bool :=
  isNameStart c || c.isDigit || c == '-' || c == '.' || c.toNat == 0xB7 ||
    (0x300 ≤ c.toNat && c.toNat ≤ 0x36F) || (0x203F ≤ c.toNat && c.toNat ≤ 0x2040)

/-- A name at the front. -/
def name? (cs : List Char) : Option (List Char × List Char) :=
  match cs with
  | [] => none
  | c :: r =>
    if isNameStart c then some (c :: r.takeWhile isNameChar, r.dropWhile isNameChar) else none

/-- A word of name characters at the front. -/
def nameToken? (cs : List Char) : Option (List Char × List Char) :=
  match cs.takeWhile isNameChar with
  | [] => none
  | w => some (w, cs.dropWhile isNameChar)

/-- Drops white space. -/
def skipSpace (cs : List Char) : List Char := cs.dropWhile isSpace

/-- Drops white space, of which there has to be some. -/
def space? (cs : List Char) : Option (List Char) :=
  if cs.head?.any isSpace then some (skipSpace cs) else none

/-- What stands before the first `w`, and what follows it. -/
def upTo? (w cs : List Char) : Option (List Char × List Char) :=
  (Text.indexOf? w cs).map fun n => (cs.take n, cs.drop (n + w.length))

/-- What stands in quotes, and what follows. -/
def quoted? : List Char → Option (List Char × List Char)
  | '"' :: r => upTo? ['"'] r
  | '\'' :: r => upTo? ['\''] r
  | _ => none

/-! ## References -/

/-- The value of a digit to a base of ten or sixteen. -/
def digitValue? (base : Nat) (c : Char) : Option Nat :=
  if c.isDigit then some (c.toNat - 48)
  else if base = 16 ∧ 'a' ≤ c ∧ c ≤ 'f' then some (c.toNat - 87)
  else if base = 16 ∧ 'A' ≤ c ∧ c ≤ 'F' then some (c.toNat - 55)
  else none

/-- The number that digits stand for. -/
def number? (base : Nat) (ds : List Char) : Option Nat :=
  if ds.isEmpty then none
  else ds.foldl (fun n d => do return (← n) * base + (← digitValue? base d)) (some 0)

/-- The character of a code, if it may stand in a document. -/
def charOfCode? (n : Nat) : Option Char :=
  if n.isValidChar then some (Char.ofNat n) |>.filter isAllowed else none

/-- The characters that have a name in every document. -/
def predefined? (name : List Char) : Option Char :=
  match String.ofList name with
  | "amp" => some '&'
  | "lt" => some '<'
  | "gt" => some '>'
  | "quot" => some '"'
  | "apos" => some '\''
  | _ => none

/-- A part of a text with references. -/
inductive Chunk where
  | literal (c : Char)
  /-- A character by its code. -/
  | character (c : Char)
  | entity (name : List Char)
deriving DecidableEq, Repr

/-- The reference that stands between an ampersand and a semicolon. -/
def reference? (body : List Char) : Option Chunk :=
  match body with
  | '#' :: 'x' :: ds => (number? 16 ds).bind charOfCode? |>.map .character
  | '#' :: ds => (number? 10 ds).bind charOfCode? |>.map .character
  | _ =>
    match name? body with
    | some (name, []) => some (.entity name)
    | _ => none

/-- The parts of a text; `pending` is the start of a reference, backwards, if the text is inside
one. -/
def chunks? (pending : Option (List Char)) : List Char → Option (List Chunk)
  | [] => if pending.isSome then none else some []
  | c :: r =>
    match pending with
    | none => if c == '&' then chunks? (some []) r else (chunks? none r).map (.literal c :: ·)
    | some body =>
      if c == ';' then do
        let part ← reference? body.reverse
        return part :: (← chunks? none r)
      else chunks? (some (c :: body)) r

end Partitura.Xml
