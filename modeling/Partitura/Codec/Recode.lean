import Partitura.Codec.Detect
import Partitura.Text.Search
import Partitura.Text.Trim

/-!
# Changing encodings

A document is read in one encoding and written in another; the declaration of an XML document names
the new one.
-/

namespace Partitura.Codec

/-! ## The name in a declaration -/

/-- How the declaration of a document names an encoding. The orders of bytes are not told apart. -/
def Encoding.declaredName : Encoding → String
  | utf8 => "UTF-8"
  | utf8Marked => "UTF8SIG"
  | utf16 | utf16Plain _ => "UTF-16"
  | utf32Plain .little => "UTF32LE"
  | utf32Plain .big => "UTF32BE"
  | latin1 => "LATIN1"
  | ascii => "ASCII"

/-- A quote of either kind. -/
def isQuote (c : Char) : Bool := c == '"' || c == '\''

/-- The length of the name of an encoding in quotes at the front, with the words before it. -/
def encodingLabel? (cs : List Char) : Option Nat :=
  match Text.stripStart? "encoding=".toList cs with
  | some (q :: r) =>
    let name := r.takeWhile (!isQuote ·)
    if isQuote q && name.length < r.length then some ("encoding=".length + name.length + 2)
    else none
  | _ => none

/-- Every label in the text replaced by `label`; the first `skip` characters belong to one that was
replaced. -/
def relabelAll (label : List Char) (skip : Nat) : List Char → List Char
  | [] => []
  | c :: r =>
    match skip with
    | k + 1 => relabelAll label k r
    | 0 =>
      match encodingLabel? (c :: r) with
      | some n => label ++ relabelAll label (n - 1) r
      | none => c :: relabelAll label 0 r

/-- A document with the name of the encoding in its declaration, if it has one. -/
def relabel (e : Encoding) (text : List Char) : List Char :=
  if "<?xml".toList.isPrefixOf text then
    match Text.indexOf? "?>".toList text with
    | some n =>
      let label := "encoding=\"".toList ++ e.declaredName.toList ++ ['"']
      relabelAll label 0 (text.take (n + 2)) ++ text.drop (n + 2)
    | none => text
  else text

/-! ## Documents -/

/-- The text that a document has in another encoding. -/
def recodedText (source target : Encoding) (bs : List UInt8) : Except DecodeFault (List Char) :=
  (readDocument source bs).map (relabel target)

/-- A text with a mark that tells the order of the bytes. -/
def markedUtf16 (order : ByteOrder) (cs : List Char) : List UInt8 := encodeUtf16 order (mark :: cs)

/-- `convert_to_utf16be`: the bytes of a plugin as the notation program reads it: without blanks at
the ends of lines, in UTF-16 with a mark. -/
def pluginBytes (text : List Char) : List UInt8 :=
  markedUtf16 .big (Text.unlines ((Text.lines text).map Text.trimRight))

end Partitura.Codec
