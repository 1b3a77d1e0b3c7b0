import Partitura.Codec.Encoding
import Partitura.Layout.Statements
import Partitura.ManuScript.Head
import Partitura.Text.Lines

/-!
# Layout of plugin files

The members of a plugin one step in, the code of methods laid out as statements, at most one blank
line at a time. A line that is not understood stays as it is.
-/

namespace Partitura.Layout

open ManuScript Codec

/-- `_find_unescaped_quote`: the offset of the first double quote that no backslash stands
before. -/
def quoteAt? : List Char → Option Nat
  | [] => none
  | ['\\'] => none
  | '\\' :: _ :: r => (quoteAt? r).map (· + 2)
  | c :: r => if c == '"' then some 0 else (quoteAt? r).map (· + 1)

/-- The offset of the bracket that closes the ones opened so far, of which there are `depth`. -/
def closingAt? (opener closer : Char) (depth : Nat) : List Char → Option Nat
  | [] => none
  | c :: r =>
    if c == opener then (closingAt? opener closer (depth + 1) r).map (· + 1)
    else if c == closer then
      if depth ≤ 1 then some 0 else (closingAt? opener closer (depth - 1) r).map (· + 1)
    else (closingAt? opener closer depth r).map (· + 1)

/-- The parameters and the code of a method, without the blanks around them. -/
def methodParts? (body : List Char) : Option (List Char × List Char) := do
  if body.head? != some '(' then none
  let close ← closingAt? '(' ')' 0 body
  let rest := Text.trim (body.drop (close + 1))
  if rest.head? != some '\x7b' then none
  let fin ← closingAt? '\x7b' '\x7d' 0 rest
  return (Text.trim ((body.take close).drop 1), Text.trim ((rest.take fin).drop 1))

/-- `_format_method_body`: the text of a method laid out; one that is not understood loses the
blanks around it only. -/
def methodBody (text : List Char) : List Char :=
  let body := Text.trim text
  match methodParts? body with
  | none => body
  | some (params, code) =>
    let head := '(' :: params ++ [')', ' ', '\x7b']
    if code.isEmpty then head ++ [' ', '\x7d']
    else head ++ ['\n'] ++ Text.unlines (statements 2 code) ++ ['\n'] ++ indentation ++ ['\x7d']

/-- The text of a member laid out: of a method, its code; of a variable, nothing changes. -/
def memberText (text : List Char) : List Char :=
  if (Text.trim text).head? == some '(' then methodBody text else text

/-- The text of a member that starts with `tail` and goes on in the lines `rest`, and how many of
them it takes. -/
def memberEnd? (tail : List Char) (rest : List (List Char)) : Option (List Char × Nat) :=
  let text := Text.unlines (tail :: rest)
  (quoteAt? text).map fun n => (text.take n, (text.take n).countP (· == '\n'))

/-- What becomes of a line that ends no member and starts none: nothing for a blank line after a
blank line or at the front. -/
def plainLine (last : Option (List Char)) (line : List Char) : List (List Char) :=
  let stripped := Text.trim line
  if stripped == ['\x7b'] || stripped == ['\x7d'] then [stripped]
  else if stripped.isEmpty then if last.all (·.isEmpty) then [] else [[]]
  else if ['/', '/'].isPrefixOf stripped then [indentation ++ stripped]
  else [Text.trimRight line]

/-- A line that starts with the mark of a comment, or holds a brace or nothing, starts no member. -/
def isPlain (line : List Char) : Bool :=
  let stripped := Text.trim line
  stripped.isEmpty || stripped == ['\x7b'] || stripped == ['\x7d'] || ['/', '/'].isPrefixOf stripped

/-- The member that starts in a line: its name, its text, and the number of further lines that it
takes. -/
def member? (line : List Char) (rest : List (List Char)) : Option (List Char × List Char × Nat) :=
  if isPlain line then none
  else match wordHead? line with
    | none => none
    | some (name, tail) => (memberEnd? tail rest).map fun (text, n) => (name, text, n)

/-- The lines laid out; `last` is the line that stands before them in the result, and the first
`skip` belong to a member that was laid out already. -/
def pluginLines (skip : Nat) (last : Option (List Char)) : List (List Char) → List (List Char)
  | [] => []
  | line :: rest =>
    match skip with
    | k + 1 => pluginLines k last rest
    | 0 =>
      match member? line rest with
      | some (name, text, n) =>
        let out := indentation ++ name ++ [' ', '"'] ++ memberText text ++ ['"']
        out :: pluginLines n (some out) rest
      | none =>
        let out := plainLine last line
        out ++ pluginLines 0 (out.getLast?.or last) rest

/-- `format_plugin`: a plugin laid out. The last line, if there is any, is ended. -/
def plugin (content : List Char) : List Char :=
  let ls := pluginLines 0 none (Text.lines content)
  Text.unlines (if ls.getLast?.all (·.isEmpty) then ls else ls ++ [[]])

/-- The text of a source file: UTF-8, with any kind of line ends. -/
def readSource (bs : List UInt8) : Except DecodeFault (List Char) :=
  (Encoding.utf8.decode bs).map Text.readLineEnds

/-- `format_file`: the text of a source file laid out. -/
def file (bs : List UInt8) : Except DecodeFault (List Char) :=
  (readSource bs).map fun text => plugin (dropMark text)

/-- `format_file_in_place`: the bytes of a source file laid out, or nothing if its text is laid out
already. -/
def file? (bs : List UInt8) : Except DecodeFault (Option (List UInt8)) :=
  (readSource bs).map fun text =>
    let out := plugin (dropMark text)
    if text = out then none else some (encodeUtf8 out)

end Partitura.Layout
