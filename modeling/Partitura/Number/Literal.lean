import Partitura.Number.Binary64
import Partitura.Text.Quoted
import Partitura.Text.Trim

/-!
# Numbers written in text

Integers and floating-point numbers as they are written in attributes and elements: blanks around
them, a sign, decimal digits of any script, and single underscores between digits.
-/

namespace Partitura.Number

/-- Why a text is not a number. -/
inductive LiteralError where
  | notAnInteger (text : String)
  | tooManyDigits (count : Nat)
  | notAReal (text : String)
deriving DecidableEq, Repr

/-- The most digits that an integer may be written with. -/
def digitLimit : Nat := 4300

/-- How it is told that a text is not a number. Only the start of a long text is quoted for an
integer. -/
def LiteralError.message : LiteralError → String
  | .notAnInteger text =>
    "invalid literal for int() with base 10: " ++ String.ofList ((Text.quoted text).toList.take 200)
  | .tooManyDigits n =>
    "Exceeds the limit (" ++ toString digitLimit ++
      " digits) for integer string conversion: value has " ++
      toString n ++ " digits; use sys.set_int_max_str_digits() to increase the limit"
  | .notAReal text => "could not convert string to float: " ++ Text.quoted text

/-- White space around a number: blanks without the information separators. -/
def isPadding (c : Char) : Bool := Text.isBlank c && !(28 ≤ c.toNat && c.toNat ≤ 31)

/-- A number without the white space around it. -/
def unpadded (cs : List Char) : List Char := Text.dropEnd isPadding (cs.dropWhile isPadding)

/-- Takes the sign off; `true` for minus. -/
def signed : List Char → Bool × List Char
  | '-' :: r => (true, r)
  | '+' :: r => (false, r)
  | r => (false, r)

/-- The digits at the front with single underscores between them, and what follows. -/
def digitsFrom : List Char → List Nat × List Char
  | [] => ([], [])
  | c :: '_' :: e :: r =>
    match Text.decimalValue? c with
    | none => ([], c :: '_' :: e :: r)
    | some d =>
      if Text.isDecimal e then
        let (ds, rest) := digitsFrom (e :: r)
        (d :: ds, rest)
      else ([d], '_' :: e :: r)
  | c :: r =>
    match Text.decimalValue? c with
    | none => ([], c :: r)
    | some d =>
      let (ds, rest) := digitsFrom r
      (d :: ds, rest)

/-- The number that decimal digits stand for. -/
def ofDigits (ds : List Nat) : Nat := ds.foldl (fun n d => 10 * n + d) 0

/-- Reads an integer. Too many digits are told before other characters after them, except for an
underscore that stands between no two digits. -/
def readInt (s : String) : Except LiteralError Int :=
  let (negative, body) := signed (unpadded s.toList)
  match digitsFrom body with
  | ([], _) => .error (.notAnInteger s)
  | (_, '_' :: _) => .error (.notAnInteger s)
  | (ds, rest) =>
    if digitLimit < ds.length then .error (.tooManyDigits ds.length)
    else if rest.isEmpty then
      let n : Int := ofDigits ds
      .ok (if negative then -n else n)
    else .error (.notAnInteger s)

/-- The exponent at the front, if the text goes on with one and with nothing else. -/
def exponentOf? : List Char → Option Int
  | [] => some 0
  | c :: r =>
    if c == 'e' || c == 'E' then
      let (negative, body) := signed r
      match digitsFrom body with
      | ([], _) => none
      | (ds, []) =>
        let n : Int := ofDigits ds
        some (if negative then -n else n)
      | _ => none
    else none

/-- Reads a floating-point number without padding and sign. -/
def unsignedReal? (negative : Bool) (cs : List Char) : Option Binary64 :=
  let word := String.ofList (cs.map Char.toLower)
  if word = "inf" ∨ word = "infinity" then some (.infinite negative)
  else if word = "nan" then some .nan
  else
    let (whole, rest) := digitsFrom cs
    let (part, rest) := match rest with
      | '.' :: r => digitsFrom r
      | r => ([], r)
    if whole.isEmpty && part.isEmpty then none
    else (exponentOf? rest).map fun e =>
      Binary64.ofDecimal negative (ofDigits (whole ++ part)) (e - part.length)

/-- Reads a floating-point number. -/
def readReal (s : String) : Except LiteralError Binary64 :=
  let (negative, body) := signed (unpadded s.toList)
  match unsignedReal? negative body with
  | some x => .ok x
  | none => .error (.notAReal s)

end Partitura.Number
