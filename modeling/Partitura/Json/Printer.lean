import Partitura.Json.Value
import Partitura.Number.Shortest
import Partitura.Text.Quoted

/-!
# Printing JSON

On one line, or laid out over lines with an indent; characters beyond ASCII are escaped as UTF-16
units.
-/

namespace Partitura.Json

/-- An escape of one UTF-16 unit. -/
def unitEscape (n : Nat) : List Char := '\\' :: 'u' :: Text.hexDigits 4 n

/-- A character in a JSON string. -/
def escapeChar (c : Char) : List Char :=
  if c == '"' || c == '\\' then ['\\', c]
  else if c == '\n' then ['\\', 'n']
  else if c == '\r' then ['\\', 'r']
  else if c == '\t' then ['\\', 't']
  else if c.toNat == 8 then ['\\', 'b']
  else if c.toNat == 12 then ['\\', 'f']
  else if 32 ≤ c.toNat && c.toNat < 127 then [c]
  else if c.toNat == 127 then [c]
  else if c.toNat < 0x10000 then unitEscape c.toNat
  else
    let n := c.toNat - 0x10000
    unitEscape (0xD800 + n / 0x400) ++ unitEscape (0xDC00 + n % 0x400)

/-- A JSON string with its quotes. -/
def quote (s : String) : String := String.ofList ('"' :: s.toList.flatMap escapeChar ++ ['"'])

/-- How lines are laid out: the text at the start of each line of a nested value, and what stands
after a comma and after a colon. -/
structure Layout where
  indent : Option Nat
  colon : String

/-- A line break, if there are lines, at a depth of nesting. -/
def Layout.newline (l : Layout) (depth : Nat) : String :=
  match l.indent with
  | none => ""
  | some n => "\n" ++ String.ofList (List.replicate (n * depth) ' ')

mutual

/-- Prints a value at a depth of nesting. -/
def printAt (l : Layout) (depth : Nat) : Json → String
  | null => "null"
  | bool b => if b then "true" else "false"
  | int n => toString n
  | real x => Number.RealFormat.json.render x
  | string s => quote s
  | array [] => "[]"
  | array (x :: xs) =>
    "[" ++ l.newline (depth + 1) ++ printAt l (depth + 1) x ++ printItems l (depth + 1) xs ++
      l.newline depth ++ "]"
  | object [] => "\x7b\x7d"
  | object ((k, v) :: ms) =>
    "\x7b" ++ l.newline (depth + 1) ++ quote k ++ l.colon ++ printAt l (depth + 1) v ++
      printMembers l (depth + 1) ms ++ l.newline depth ++ "\x7d"

/-- Prints the items after the first. -/
def printItems (l : Layout) (depth : Nat) : List Json → String
  | [] => ""
  | x :: xs => "," ++ l.newline depth ++ printAt l depth x ++ printItems l depth xs

/-- Prints the members after the first. -/
def printMembers (l : Layout) (depth : Nat) : List (String × Json) → String
  | [] => ""
  | (k, v) :: ms =>
    "," ++ l.newline depth ++ quote k ++ l.colon ++ printAt l depth v ++ printMembers l depth ms

end

/-- A value on one line, without spaces. -/
def compact (v : Json) : String := printAt ⟨none, ":"⟩ 0 v

/-- A value over lines, indented by two. -/
def pretty (v : Json) : String := printAt ⟨some 2, ": "⟩ 0 v

end Partitura.Json
