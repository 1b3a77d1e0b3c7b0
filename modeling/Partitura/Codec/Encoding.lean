import Partitura.Codec.Unicode
import Partitura.Text.LowerCase

/-!
# Encodings

The encodings of text files, the names that are understood, and reading and writing of bytes in
them.
-/

namespace Partitura.Codec

/-- An encoding of text. `utf8Marked` has a byte order mark in front; `utf16` has one that tells the
order of the bytes. -/
inductive Encoding where
  | utf8
  | utf8Marked
  | utf16
  | utf16Plain (order : ByteOrder)
  | utf32Plain (order : ByteOrder)
  | latin1
  | ascii
deriving DecidableEq, Repr

/-- The byte order mark. -/
def mark : Char := '\ufeff'

/-- A text without the byte order mark in front. -/
def dropMark : List Char → List Char
  | [] => []
  | c :: r => if c = mark then r else c :: r

namespace Encoding

/-- The name of an encoding. -/
def name : Encoding → String
  | utf8 => "utf-8"
  | utf8Marked => "utf-8-sig"
  | utf16 => "utf-16"
  | utf16Plain .little => "utf-16-le"
  | utf16Plain .big => "utf-16-be"
  | utf32Plain .little => "utf-32-le"
  | utf32Plain .big => "utf-32-be"
  | latin1 => "latin-1"
  | ascii => "ascii"

/-- The names that are understood. -/
def names : List (String × Encoding) :=
  [("utf8", utf8), ("utf-8", utf8), ("utf16", utf16), ("utf-16", utf16),
    ("utf16le", utf16Plain .little), ("utf-16-le", utf16Plain .little),
    ("utf16be", utf16Plain .big), ("utf-16-be", utf16Plain .big), ("latin1", latin1),
    ("latin-1", latin1), ("iso-8859-1", latin1), ("ascii", ascii)]

/-- `normalize_encoding`: the encoding of a name, in any case and with underscores for hyphens. -/
def ofName? (s : String) : Option Encoding :=
  let key := (Text.lower s).map fun c => if c == '_' then '-' else c
  names.lookup key

/-- How it is told that a name is not understood. -/
def unknownName (s : String) : String := "Unknown encoding: " ++ s

/-- Names the encoding in a fault. -/
def blame (codec : String) (r : Except BadBytes (List Char)) : Except DecodeFault (List Char) :=
  r.mapError (.invalid codec)

/-- Reads ASCII at the offset `pos`. -/
def decodeAsciiFrom (pos : Nat) : List UInt8 → Except BadBytes (List Char)
  | [] => .ok []
  | a :: r =>
    if a < 0x80 then consChar a.toNat (decodeAsciiFrom (pos + 1) r)
    else .error ⟨pos, [a], .asciiRange⟩

/-- Reads UTF-16 with a mark; without a mark the bytes have to be valid with the low byte first, and
are refused then. -/
def decodeMarked16 : List UInt8 → Except DecodeFault (List Char)
  | 0xFF :: 0xFE :: r => blame (name (utf16Plain .little)) (decodeUtf16From .little 2 r)
  | 0xFE :: 0xFF :: r => blame (name (utf16Plain .big)) (decodeUtf16From .big 2 r)
  | [] => .ok []
  | r =>
    match blame (name (utf16Plain .little)) (decodeUtf16From .little 0 r) with
    | .error f => .error f
    | .ok _ => .error .noMark

/-- Reads the bytes of a text. -/
def decode (e : Encoding) (bs : List UInt8) : Except DecodeFault (List Char) :=
  match e with
  | utf8 => blame e.name (decodeUtf8From 0 bs)
  | utf8Marked =>
    match bs with
    | 0xEF :: 0xBB :: 0xBF :: r => blame (name utf8) (decodeUtf8From 0 r)
    | bs => blame (name utf8) (decodeUtf8From 0 bs)
  | utf16 => decodeMarked16 bs
  | utf16Plain order => blame e.name (decodeUtf16From order 0 bs)
  | utf32Plain order => blame e.name (decodeUtf32From order 0 bs)
  | latin1 => .ok (bs.map fun b => Char.ofNat b.toNat)
  | ascii => blame e.name (decodeAsciiFrom 0 bs)

/-- Writes characters below the limit as single bytes. -/
def encodeBelow (codec : String) (limit : Nat) (cs : List Char) : Except EncodeFault (List UInt8) :=
  let fit := cs.takeWhile (·.toNat < limit)
  if fit.length = cs.length then .ok (cs.map fun c => byte c.toNat)
  else .error ⟨codec, fit.length, (cs.drop fit.length).takeWhile (limit ≤ ·.toNat), limit⟩

/-- Writes the bytes of a text. -/
def encode (e : Encoding) (cs : List Char) : Except EncodeFault (List UInt8) :=
  match e with
  | utf8 => .ok (encodeUtf8 cs)
  | utf8Marked => .ok (encodeUtf8 (mark :: cs))
  | utf16 => .ok (encodeUtf16 .little (mark :: cs))
  | utf16Plain order => .ok (encodeUtf16 order cs)
  | utf32Plain order => .ok (encodeUtf32 order cs)
  | latin1 => encodeBelow e.name 256 cs
  | ascii => encodeBelow e.name 128 cs

end Encoding

end Partitura.Codec
