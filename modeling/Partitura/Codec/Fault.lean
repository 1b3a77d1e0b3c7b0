import Partitura.Text.Quoted

/-!
# Faults of coding

Why bytes are no text in an encoding, and why a text has no bytes in it. A fault names the stretch
that is to blame and is told in one line.
-/

namespace Partitura.Codec

/-- What is wrong with a stretch of bytes. -/
inductive Defect where
  | startByte
  | continuationByte
  | endOfData
  | truncated
  | surrogate
  | loneSurrogate
  | surrogateCode
  | codeRange
  | asciiRange
deriving DecidableEq, Repr

/-- The words for a defect. -/
def Defect.words : Defect → String
  | startByte => "invalid start byte"
  | continuationByte => "invalid continuation byte"
  | endOfData => "unexpected end of data"
  | truncated => "truncated data"
  | surrogate => "illegal UTF-16 surrogate"
  | loneSurrogate => "illegal encoding"
  | surrogateCode => "code point in surrogate code point range"
  | codeRange => "code point not in range(0x110000)"
  | asciiRange => "ordinal not in range(128)"

/-- A stretch of bytes, at its offset, with its defect. -/
structure BadBytes where
  start : Nat
  stretch : List UInt8
  defect : Defect
deriving DecidableEq, Repr

/-- Why bytes cannot be read. -/
inductive DecodeFault where
  /-- A stretch is not valid in the encoding of that name. -/
  | invalid (codec : String) (bad : BadBytes)
  /-- The mark that tells the order of the bytes is missing. -/
  | noMark
deriving DecidableEq, Repr

/-- The words for a stretch from `start` of `length` items: one item is shown, more are counted. -/
def stretchWords (verb item shown : String) (start length : Nat) : String :=
  if length = 1 then
    "can't " ++ verb ++ " " ++ item ++ " " ++ shown ++ " in position " ++ toString start
  else "can't " ++ verb ++ " " ++ item ++ "s in position " ++ toString start ++ "-" ++
    toString (start + length - 1)

/-- How a fault of reading is told. -/
def DecodeFault.message : DecodeFault → String
  | invalid codec bad =>
    let shown := "0x" ++ String.ofList (Text.hexDigits 2 (bad.stretch.headD 0).toNat)
    "'" ++ codec ++ "' codec " ++ stretchWords "decode" "byte" shown bad.start bad.stretch.length ++
      ": " ++ bad.defect.words
  | noMark => "UTF-16 stream does not start with BOM"

/-- Why a text cannot be written: a run of characters, at its offset, that are beyond the `limit` of
the encoding. -/
structure EncodeFault where
  codec : String
  start : Nat
  run : List Char
  limit : Nat
deriving DecidableEq, Repr

/-- A character by its code. -/
def codeOf (c : Char) : String :=
  let n := c.toNat
  String.ofList ('\\' ::
    (if n < 0x100 then 'x' :: Text.hexDigits 2 n
      else if n < 0x10000 then 'u' :: Text.hexDigits 4 n
      else 'U' :: Text.hexDigits 8 n))

/-- How a fault of writing is told. -/
def EncodeFault.message (f : EncodeFault) : String :=
  let shown := "'" ++ codeOf (f.run.headD ' ') ++ "'"
  "'" ++ f.codec ++ "' codec " ++ stretchWords "encode" "character" shown f.start f.run.length ++
    ": ordinal not in range(" ++ toString f.limit ++ ")"

end Partitura.Codec
