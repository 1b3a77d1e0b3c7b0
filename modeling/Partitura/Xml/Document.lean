import Partitura.Codec.Encoding
import Partitura.Text.Lines
import Partitura.Xml.Tree

/-!
# Reading XML documents

From bytes to the root element: the encoding is told by a byte order mark, by the first characters
or by the heading; comments, instructions and a document type may stand before the root.
-/

namespace Partitura.Xml

open Codec

/-- What a document says of itself in its first line. -/
structure Heading where
  encoding : Option (List Char)
  standalone : Bool
deriving DecidableEq, Repr

/-- One item of a heading: white space, the name, an equals sign and a value in quotes. -/
def item? (name : String) (cs : List Char) : Option (List Char × List Char) := do
  let cs ← Text.stripStart? name.toList (← space? cs)
  quoted? (skipSpace (← Text.stripStart? ['='] (skipSpace cs)))

/-- A version number of the first edition. -/
def isVersion : List Char → Bool
  | '1' :: '.' :: ds => ds.all Char.isDigit
  | _ => false

/-- The name of an encoding. -/
def isEncodingName : List Char → Bool
  | c :: r => c.isAlpha && r.all fun c => c.isAlphanum || c == '.' || c == '_' || c == '-'
  | [] => false

/-- An item that may be missing, with a check of its value. -/
def optionalItem? (name : String) (valid : List Char → Bool) (cs : List Char) :
    Option (Option (List Char) × List Char) :=
  if (Text.stripStart? name.toList (skipSpace cs)).isSome then do
    let (value, rest) ← item? name cs
    if valid value then some (some value, rest) else none
  else some (none, cs)

/-- The heading at the front, if there is one, and what follows; nothing if it is malformed. -/
def heading? (cs : List Char) : Option (Heading × List Char) :=
  match (Text.stripStart? "<?xml".toList cs).filter (·.head?.any isSpace) with
  | some rest => do
    let (version, rest) ← item? "version" rest
    if !isVersion version then none
    let (encoding, rest) ← optionalItem? "encoding" isEncodingName rest
    let (alone, rest) ← optionalItem? "standalone"
        (fun v => v == "yes".toList || v == "no".toList) rest
    let rest ← Text.stripStart? ['?', '>'] (skipSpace rest)
    return (⟨encoding, alone == some "yes".toList⟩, rest)
  | none => some (⟨none, false⟩, cs)

/-- Reads the pieces before the root element, among which there may be one document type, and what
follows them. -/
def prolog (standalone : Bool) (fuel : Nat) (found : Option DocType) (cs : List Char) :
    Reading (DocType × List Char) :=
  match fuel with
  | 0 => failure
  | fuel + 1 =>
    match skipSpace cs with
    | '<' :: '?' :: r => do
      let (target, rest) ← instruction? r
      noteTarget target
      prolog standalone fuel found rest
    | '<' :: '!' :: r =>
      match Text.stripStart? ['-', '-'] r, Text.stripStart? "DOCTYPE".toList r with
      | some r, _ => do prolog standalone fuel found (← comment? r)
      | none, some r => do
        if found.isSome then failure
        let (d, rest) ← DocType.read standalone r
        prolog standalone fuel (some d) rest
      | none, none => failure
    | cs => return (found.getD (.none standalone), cs)

/-- Reads the text of a document. -/
def document (text : List Char) : Reading Element := do
  let cs := Text.readLineEnds text
  if !cs.all isAllowed then failure
  let (heading, rest) ← heading? cs
  let (d, rest) ← prolog heading.standalone (rest.length + 1) none rest
  rootOf d (← piecesOf? rest)

/-- The root element of the text of a document. -/
def root? (text : List Char) : Option Element := do
  let (root, remarks) ← (document text).run []
  if isAccepted remarks then some root else none

/-- Names of encodings in headings, in lower case. -/
def encodingNames : List (String × Encoding) :=
  [("utf-8", .utf8), ("utf8", .utf8),
    ("iso-8859-1", .latin1), ("iso-latin-1", .latin1), ("iso_8859-1", .latin1),
    ("iso8859-1", .latin1), ("latin1", .latin1), ("l1", .latin1), ("cp819", .latin1),
    ("ibm819", .latin1), ("iso-ir-100", .latin1), ("csisolatin1", .latin1), ("ascii", .ascii),
    ("us-ascii", .ascii), ("ansi_x3.4-1968", .ascii), ("ansi_x3.4-1986", .ascii),
    ("iso646-us", .ascii), ("iso-ir-6", .ascii), ("cp367", .ascii), ("ibm367", .ascii),
    ("us", .ascii), ("csascii", .ascii)]

/-- The encoding of a document whose characters are single bytes up to the end of its heading. -/
def declaredEncoding? (bs : List UInt8) : Option Encoding := do
  let (heading, _) ← heading? (bs.map fun b => Char.ofNat b.toNat)
  match heading.encoding with
  | none => some .utf8
  | some name => encodingNames.lookup (String.ofList (name.map Char.toLower))

/-- The encoding of the bytes of a document, and the bytes without the mark. -/
def encodingOf? (bs : List UInt8) : Option (Encoding × List UInt8) :=
  match bs with
  | 0xEF :: 0xBB :: 0xBF :: r => some (.utf8, r)
  | 0xFF :: 0xFE :: 0 :: 0 :: r => some (.utf32Plain .little, r)
  | 0 :: 0 :: 0xFE :: 0xFF :: r => some (.utf32Plain .big, r)
  | 0xFF :: 0xFE :: r => some (.utf16Plain .little, r)
  | 0xFE :: 0xFF :: r => some (.utf16Plain .big, r)
  | 0x3C :: 0 :: 0 :: 0 :: _ => some (.utf32Plain .little, bs)
  | 0 :: 0 :: 0 :: 0x3C :: _ => some (.utf32Plain .big, bs)
  | 0x3C :: 0 :: 0x3F :: 0 :: _ => some (.utf16Plain .little, bs)
  | 0 :: 0x3C :: 0 :: 0x3F :: _ => some (.utf16Plain .big, bs)
  | _ => (declaredEncoding? bs).map (·, bs)

/-- The root element of a document; nothing if the document is malformed or refused. -/
def parse? (bs : List UInt8) : Option Element := do
  let (encoding, bytes) ← encodingOf? bs
  match encoding.decode bytes with
  | .ok text => root? text
  | .error _ => none

end Partitura.Xml
