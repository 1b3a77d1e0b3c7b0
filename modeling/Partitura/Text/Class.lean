import Partitura.Text.Letters
import Partitura.Text.Numerals
import Partitura.Text.Unprintable

/-!
# Character classes

The classes of characters that the readers of this library distinguish: blanks, letters, digits,
decimal digits, word characters and printable characters. Each is the Unicode notion, with the ASCII
part written out and the rest taken from a table of ranges.
-/

namespace Partitura.Text

/-- The blanks: white space of every kind, with the four information separators. -/
def blanks : List Nat :=
  [9, 10, 11, 12, 13, 28, 29, 30, 31, 32, 133, 160, 5760, 8192, 8193, 8194, 8195, 8196, 8197,
    8198, 8199, 8200, 8201, 8202, 8232, 8233, 8239, 8287, 12288]

/-- White space, of ASCII or beyond. -/
def isBlank (c : Char) : Bool := blanks.contains c.toNat

/-- A letter of any script. -/
def isLetter (c : Char) : Bool :=
  if c.toNat < 128 then c.isAlpha else inRanges letterRanges c.toNat

/-- A character with a digit value, superscripts included. -/
def isDigit (c : Char) : Bool :=
  if c.toNat < 128 then c.isDigit else inRanges digitRanges c.toNat

/-- A letter or a numeric character. -/
def isAlphanumeric (c : Char) : Bool :=
  if c.toNat < 128 then c.isAlphanum
  else inRanges letterRanges c.toNat || inRanges numeralRanges c.toNat

/-- A character of a word: a letter, a numeric character or an underscore. -/
def isWordChar (c : Char) : Bool := isAlphanumeric c || c == '_'

/-- The value of a decimal digit of any script. -/
def decimalValue? (c : Char) : Option Nat :=
  if c.isDigit then some (c.toNat - 48)
  else (decimalZeros.find? fun z => z ≤ c.toNat && c.toNat < z + 10).map (c.toNat - ·)

/-- A decimal digit of any script. -/
def isDecimal (c : Char) : Bool := (decimalValue? c).isSome

/-- A character with a printed form of its own. -/
def isPrintable (c : Char) : Bool :=
  if c.toNat < 128 then 32 ≤ c.toNat && c.toNat < 127 else !inRanges unprintableRanges c.toNat

/-- An ASCII letter or underscore, the start of a plain name. -/
def isNameStart (c : Char) : Bool := c.isAlpha || c == '_'

/-- An ASCII letter, digit or underscore, the rest of a plain name. -/
def isNameChar (c : Char) : Bool := c.isAlphanum || c == '_'

end Partitura.Text
