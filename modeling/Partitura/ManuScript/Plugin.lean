import Partitura.ManuScript.Lexer
import Partitura.Text.Trim
import Partitura.Text.Search

/-!
# Plugin files

A plugin file is a list of members between braces. A member is a name and a text in quotes: a method
if the text starts with a parenthesis, a variable otherwise. Tokens that start no member are passed
over.
-/

namespace Partitura.ManuScript

/-- What a member of a plugin is. -/
inductive MemberValue where
  | method (params : List String)
  | variable (value : String)
deriving DecidableEq, Repr

/-- A member of a plugin, with the place of its name. -/
structure Member where
  name : String
  pos : Position
  value : MemberValue
deriving DecidableEq, Repr

/-- A plugin. -/
structure Plugin where
  members : List Member
deriving DecidableEq, Repr

namespace Plugin

/-- Why a list of tokens is no plugin. -/
inductive ParseError where
  /-- Another token stands where one of the given kind is needed. -/
  | expected (wanted : Kind) (found : Token)
  /-- There is no token at all. -/
  | empty
deriving DecidableEq, Repr

/-- How it is told that tokens are no plugin. -/
def ParseError.message : ParseError → String
  | .expected wanted found =>
    "Expected " ++ wanted.name ++ ", got " ++ found.kind.name ++ " at line " ++
      toString found.pos.line ++ ":" ++ toString found.pos.col
  | .empty => "list index out of range"

/-- `_extract_params`: the names between the first parenthesis, at the front of the text, and the
first closing one. -/
def paramsOf (content : List Char) : List String :=
  match content with
  | '(' :: r =>
    let inner := r.takeWhile (· != ')')
    if inner.length < r.length then
      let names := Text.trim inner
      if names.isEmpty then []
      else (Text.splitOn ',' names).map fun p => String.ofList (Text.trim p)
    else []
  | _ => []

/-- The value of a member whose text, with its quotes, is `quoted`. -/
def valueOf (quoted : List Char) : MemberValue :=
  let content := (quoted.drop 1).dropLast
  if content.head? == some '(' then .method (paramsOf content)
  else .variable (String.ofList content)

/-- `_parse_plugin_member`: the members up to a closing brace or the end of the text, and what
follows them. -/
def membersOf : List Token → List Member × List Token
  | [] => ([], [])
  | t :: r =>
    if t.kind = .rbrace ∨ t.kind = .fin then ([], t :: r)
    else if t.kind = .identifier then
      match r with
      | s :: r' =>
        if s.kind = .string then
          let (ms, rest) := membersOf r'
          (⟨t.text, t.pos, valueOf s.text.toList⟩ :: ms, rest)
        else membersOf (s :: r')
      | [] => ([], [])
    else membersOf r

/-- The complaint that a token is needed at the front of `ts`, the end of the tokens `all`. -/
def refuse (wanted : Kind) (all ts : List Token) : ParseError :=
  match ts.head?.or all.getLast? with
  | some t => .expected wanted t
  | none => .empty

/-- `Parser.parse`: reads a plugin from its tokens; the list may, and need not, have the one that
ends the text. -/
def ofTokens (ts : List Token) : Except ParseError Plugin :=
  match ts with
  | [] => .error .empty
  | t :: r =>
    if t.kind = .lbrace then
      let (members, rest) := membersOf r
      match rest with
      | c :: _ => if c.kind = .rbrace then .ok ⟨members⟩ else .error (refuse .rbrace ts rest)
      | [] => .error (refuse .rbrace ts [])
    else .error (.expected .lbrace t)

/-- `parse_plugin`: reads a plugin from its text; a byte order mark at the front is dropped. -/
def parse (s : String) : Except ParseError Plugin :=
  let cs := match s.toList with
    | '\ufeff' :: r => r
    | cs => cs
  ofTokens (lex .plugin ⟨1, 1⟩ cs).all

end Plugin

end Partitura.ManuScript
