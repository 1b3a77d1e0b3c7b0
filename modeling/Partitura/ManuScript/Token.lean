import Partitura.Text.Quoted

/-!
# Tokens of ManuScript

Kinds of tokens, the words that are reserved, and tokens with the place where they start.
-/

namespace Partitura.ManuScript

/-- A place in a text: line and column, counted from one where nothing else is said. -/
structure Position where
  line : Int
  col : Int
deriving DecidableEq, Repr, Inhabited

/-- The place after one more character. -/
def Position.step (p : Position) (c : Char) : Position :=
  if c = '\n' then ⟨p.line + 1, 1⟩ else ⟨p.line, p.col + 1⟩

/-- The place after a stretch of text. -/
def Position.after (p : Position) (cs : List Char) : Position := cs.foldl Position.step p

/-- `TokenType`: the kinds of tokens. `invalid` is a string that is not closed on its line; `fin` is
the end of the text. -/
inductive Kind where
  | string | number | identifier
  | kwIf | kwElse | kwFor | kwEach | kwIn | kwTo | kwWhile | kwSwitch | kwCase
  | kwDefault | kwReturn
  | kwAnd | kwOr | kwNot | kwTrue | kwFalse | kwNull
  | plus | minus | star | slash | percent | ampersand | assign | lt | gt | lte | gte | neq
  | dot | colon | lparen | rparen | lbrace | rbrace | lbracket | rbracket | comma | semicolon
  | comment | fin | invalid
deriving DecidableEq, Repr, Inhabited

namespace Kind

/-- Every kind, in the order of their declaration. -/
def all : List Kind :=
  [string, number, identifier, kwIf, kwElse, kwFor, kwEach, kwIn, kwTo, kwWhile, kwSwitch,
    kwCase, kwDefault, kwReturn, kwAnd, kwOr, kwNot, kwTrue, kwFalse, kwNull, plus, minus, star,
    slash, percent, ampersand, assign, lt, gt, lte, gte, neq, dot, colon, lparen, rparen, lbrace,
    rbrace, lbracket, rbracket, comma, semicolon, comment, fin, invalid]

/-- The name under which a kind is reported. -/
def name : Kind → String
  | string => "STRING"
  | number => "NUMBER"
  | identifier => "IDENTIFIER"
  | kwIf => "IF"
  | kwElse => "ELSE"
  | kwFor => "FOR"
  | kwEach => "EACH"
  | kwIn => "IN"
  | kwTo => "TO"
  | kwWhile => "WHILE"
  | kwSwitch => "SWITCH"
  | kwCase => "CASE"
  | kwDefault => "DEFAULT"
  | kwReturn => "RETURN"
  | kwAnd => "AND"
  | kwOr => "OR"
  | kwNot => "NOT"
  | kwTrue => "TRUE"
  | kwFalse => "FALSE"
  | kwNull => "NULL"
  | plus => "PLUS"
  | minus => "MINUS"
  | star => "STAR"
  | slash => "SLASH"
  | percent => "PERCENT"
  | ampersand => "AMPERSAND"
  | assign => "ASSIGN"
  | lt => "LT"
  | gt => "GT"
  | lte => "LTE"
  | gte => "GTE"
  | neq => "NEQ"
  | dot => "DOT"
  | colon => "COLON"
  | lparen => "LPAREN"
  | rparen => "RPAREN"
  | lbrace => "LBRACE"
  | rbrace => "RBRACE"
  | lbracket => "LBRACKET"
  | rbracket => "RBRACKET"
  | comma => "COMMA"
  | semicolon => "SEMICOLON"
  | comment => "COMMENT"
  | fin => "EOF"
  | invalid => "ERROR"

/-- The kind of that name. -/
def ofName? (s : String) : Option Kind := all.find? (·.name == s)

/-- The reserved words. -/
def keywords : List (String × Kind) :=
  [("if", kwIf), ("else", kwElse), ("for", kwFor), ("each", kwEach), ("in", kwIn), ("to", kwTo),
    ("while", kwWhile), ("switch", kwSwitch), ("case", kwCase), ("default", kwDefault),
    ("return", kwReturn), ("and", kwAnd), ("or", kwOr), ("not", kwNot), ("True", kwTrue),
    ("true", kwTrue), ("False", kwFalse), ("false", kwFalse), ("null", kwNull)]

/-- The kind of a word: reserved, or a plain identifier. -/
def ofWord (w : String) : Kind := (keywords.lookup w).getD identifier

end Kind

/-- A token: its kind, the text it is written with, and where it starts. -/
structure Token where
  kind : Kind
  text : String
  pos : Position
deriving DecidableEq, Repr, Inhabited

/-- The form in which a single token is shown. -/
def Token.render (t : Token) : String :=
  "Token(" ++ t.kind.name ++ ", " ++ Text.quoted t.text ++ ", " ++ toString t.pos.line ++ ":" ++
    toString t.pos.col ++ ")"

end Partitura.ManuScript
