import Partitura.Codec.Encoding
import Partitura.Text.Lines

/-!
# Detecting encodings

The encoding of a document, from the mark in front of its bytes or from its declaration, and the
text of a document in the encoding that was found.
-/

namespace Partitura.Codec

/-- How many bytes of a document are searched for its declaration. -/
def headerSize : Nat := 200

/-- Whether the bytes `w` stand somewhere in `bs`. -/
def bytesOccurIn (w : List UInt8) : List UInt8 → Bool
  | [] => w.isEmpty
  | b :: r => w.isPrefixOf (b :: r) || bytesOccurIn w r

/-- The ASCII characters among the bytes. -/
def asciiOf (bs : List UInt8) : List Char := (bs.filter (· < 0x80)).map fun b => Char.ofNat b.toNat

/-- The encoding of a document without a mark, from its first bytes: every other byte of an opening
`<?` is zero, or the declaration names UTF-16; all else is UTF-8. -/
def headerEncoding (header : List UInt8) : Encoding :=
  if bytesOccurIn [0x00, 0x3C, 0x00, 0x3F] header ||
    bytesOccurIn [0x3C, 0x00, 0x3F, 0x00] header then
    .utf16Plain (if header.head? == some 0 then .big else .little)
  else if Text.occursIn "encoding=\"UTF-16\"".toList (asciiOf header) ||
      Text.occursIn "encoding='UTF-16'".toList (asciiOf header) then .utf16
  else .utf8

/-- `detect_encoding`: the encoding of a document. A mark decides, the longer marks before the
shorter ones. -/
def detect : List UInt8 → Encoding
  | 0xEF :: 0xBB :: 0xBF :: _ => .utf8Marked
  | 0x00 :: 0x00 :: 0xFE :: 0xFF :: _ => .utf32Plain .big
  | 0xFF :: 0xFE :: 0x00 :: 0x00 :: _ => .utf32Plain .little
  | 0xFF :: 0xFE :: _ => .utf16Plain .little
  | 0xFE :: 0xFF :: _ => .utf16Plain .big
  | bs => headerEncoding (bs.take headerSize)

/-- The text of a document in an encoding, with any kind of line ends, and without a mark. -/
def readDocument (e : Encoding) (bs : List UInt8) : Except DecodeFault (List Char) :=
  (e.decode bs).map fun cs => dropMark (Text.readLineEnds cs)

/-- `read_xml`: the text of a document in the encoding that is detected. -/
def detectedText (bs : List UInt8) : Except DecodeFault (List Char) := readDocument (detect bs) bs

end Partitura.Codec
