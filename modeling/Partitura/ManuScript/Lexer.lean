import Partitura.ManuScript.Issue

/-!
# Lexing

Cutting a text into pieces, and the pieces into tokens with their places. There are two dialects. In
the code of a method a string ends on its line, a colon is a token, and every line counts once. In
the text of a plugin file a string may run over lines and need not be closed, a colon is nothing,
and a line break between tokens counts for two.

* `pieces`: what stands one after another in a text; their texts concatenate to it
  (`flatMap_text_pieces`).
* `Lexed`: the tokens of a text, the place of its end, and the issues of its characters.
-/

namespace Partitura.ManuScript

/-- The two ways of reading a text. -/
inductive Dialect where
  | body
  | plugin
deriving DecidableEq, Repr

/-- What stands at the front of a text. -/
inductive Piece where
  /-- White space. -/
  | gap (c : Char)
  /-- A token, comments and unclosed strings included. -/
  | token (kind : Kind) (first : Char) (more : List Char)
  /-- A character that starts no token. -/
  | stray (c : Char)
deriving DecidableEq, Repr

namespace Piece

/-- The characters of a piece. -/
def text : Piece → List Char
  | gap c => [c]
  | token _ c r => c :: r
  | stray c => [c]

theorem length_text_pos (p : Piece) : 0 < p.text.length := by
  cases p <;> simp [text]

end Piece

namespace Lexer

/-- White space between tokens. -/
def isGap (c : Char) : Bool := c == ' ' || c == '\t' || c == '\r' || c == '\n'

/-- A character of a number after its first. -/
def isNumberChar (c : Char) : Bool := Text.isDigit c || c == '.'

/-- `_read_string`: what belongs to a string after its opening quote, and whether it is closed. A
backslash takes the next character with it, whatever that is; if `oneLine` the string stops before a
line feed. -/
def stringRest (oneLine : Bool) (quote : Char) : List Char → List Char × Bool
  | [] => ([], false)
  | ['\\'] => (['\\'], false)
  | '\\' :: e :: r =>
    let (t, closed) := stringRest oneLine quote r
    ('\\' :: e :: t, closed)
  | c :: r =>
    if c == quote then ([c], true)
    else if oneLine && c == '\n' then ([], false)
    else
      let (t, closed) := stringRest oneLine quote r
      (c :: t, closed)

/-- The operators of two characters. -/
def pair? (c d : Char) : Option Kind :=
  match c, d with
  | '<', '=' => some .lte
  | '>', '=' => some .gte
  | '!', '=' => some .neq
  | _, _ => none

/-- The operators and marks of one character. -/
def single? (d : Dialect) (c : Char) : Option Kind :=
  match c with
  | '=' => some .assign
  | '+' => some .plus
  | '-' => some .minus
  | '*' => some .star
  | '/' => some .slash
  | '%' => some .percent
  | '&' => some .ampersand
  | '<' => some .lt
  | '>' => some .gt
  | '.' => some .dot
  | ':' => if d = .body then some .colon else none
  | '(' => some .lparen
  | ')' => some .rparen
  | '\x7b' => some .lbrace
  | '\x7d' => some .rbrace
  | '[' => some .lbracket
  | ']' => some .rbracket
  | ',' => some .comma
  | ';' => some .semicolon
  | _ => none

/-- The operator or mark that starts with `c`, when `r` follows. -/
def mark (d : Dialect) (c : Char) (r : List Char) : Piece :=
  match r.head?.bind (pair? c), r with
  | some k, e :: _ => .token k c [e]
  | _, _ =>
    match single? d c with
    | some k => .token k c []
    | none => .stray c

/-- The piece at the front of the text `c :: r`. -/
def front (d : Dialect) (c : Char) (r : List Char) : Piece :=
  if isGap c then .gap c
  else if c == '/' && r.head? == some '/' then .token .comment c (r.takeWhile (· != '\n'))
  else if c == '\'' || c == '"' then
    let (t, closed) := stringRest (d = .body) c r
    .token (if closed || d = .plugin then .string else .invalid) c t
  else if Text.isDigit c || (c == '-' && r.head?.any Text.isDigit) then
    .token .number c (r.takeWhile isNumberChar)
  else if Text.isLetter c || c == '_' then
    let w := r.takeWhile Text.isWordChar
    .token (Kind.ofWord (String.ofList (c :: w))) c w
  else mark d c r

/-- The pieces of a text, one after another. -/
def pieces (d : Dialect) (cs : List Char) : List Piece :=
  match cs with
  | [] => []
  | c :: r => front d c r :: pieces d ((c :: r).drop (front d c r).text.length)
termination_by cs.length
decreasing_by
  have := (front d c r).length_text_pos
  simp only [List.length_drop, List.length_cons]
  omega

theorem stringRest_isPrefix (oneLine : Bool) (quote : Char) (cs : List Char) :
    (stringRest oneLine quote cs).1 <+: cs := by
  fun_induction stringRest oneLine quote cs <;> simp_all [List.cons_prefix_cons]

theorem text_mark_isPrefix (d : Dialect) (c : Char) (r : List Char) :
    (mark d c r).text <+: c :: r := by
  unfold mark
  split
  · simp [Piece.text]
  · split <;> simp [Piece.text]

/-- A piece is the start of the text that it is read from. -/
theorem text_front_isPrefix (d : Dialect) (c : Char) (r : List Char) :
    (front d c r).text <+: c :: r := by
  unfold front
  split
  · simp [Piece.text]
  · split
    · simpa [Piece.text] using List.takeWhile_prefix _
    · split
      · simpa [Piece.text] using stringRest_isPrefix _ c r
      · split
        · simpa [Piece.text] using List.takeWhile_prefix _
        · split
          · simpa [Piece.text] using List.takeWhile_prefix _
          · exact text_mark_isPrefix d c r

theorem append_drop_of_isPrefix {w cs : List Char} (h : w <+: cs) : w ++ cs.drop w.length = cs := by
  obtain ⟨t, rfl⟩ := h
  simp

/-- Nothing of a text is lost in its pieces. -/
theorem flatMap_text_pieces (d : Dialect) (cs : List Char) :
    (pieces d cs).flatMap Piece.text = cs := by
  fun_induction pieces d cs with
  | case1 => rfl
  | case2 c r ih =>
    rw [List.flatMap_cons, ih]
    exact append_drop_of_isPrefix (text_front_isPrefix d c r)

/-- The place after a piece that starts at `p`. -/
def afterPiece (d : Dialect) (p : Position) (piece : Piece) : Position :=
  match d, piece with
  | .plugin, .gap '\n' => ⟨p.line + 2, 1⟩
  | _, _ => p.after piece.text

/-- The pieces with the places where they start. -/
def place (d : Dialect) (p : Position) : List Piece → List (Position × Piece)
  | [] => []
  | piece :: ps => (p, piece) :: place d (afterPiece d p piece) ps

/-- The token that a placed piece is, if it is one. -/
def token? : Position × Piece → Option Token
  | (p, .token k c r) => some ⟨k, String.ofList (c :: r), p⟩
  | _ => none

/-- The issue with a placed piece, if it has one. -/
def issue? : Position × Piece → Option Diagnostic
  | (p, .token .invalid _ _) => some ⟨p, .unterminatedString⟩
  | (p, .stray c) => some ⟨p, .unexpectedCharacter c⟩
  | _ => none

end Lexer

/-- A lexed text: its tokens, the place of its end, and the issues of its characters. -/
structure Lexed where
  tokens : List Token
  fin : Position
  issues : List Diagnostic
deriving DecidableEq, Repr

/-- The token at the end of the text. -/
def Lexed.finToken (l : Lexed) : Token := ⟨.fin, "", l.fin⟩

/-- The tokens with the one at the end. -/
def Lexed.all (l : Lexed) : List Token := l.tokens ++ [l.finToken]

/-- Lexes a text that starts at the place `p`. -/
def lex (d : Dialect) (p : Position) (cs : List Char) : Lexed :=
  let ps := Lexer.pieces d cs
  let placed := Lexer.place d p ps
  { tokens := placed.filterMap Lexer.token?
    fin := ps.foldl (Lexer.afterPiece d) p
    issues := placed.filterMap Lexer.issue? }

/-- `MethodBodyTokenizer.tokenize`: lexes the code of a method. -/
def lexBody (p : Position) (s : String) : Lexed := lex .body p s.toList

/-- `Tokenizer.tokenize`: lexes the text of a plugin file. -/
def lexPlugin (s : String) : Lexed := lex .plugin ⟨1, 1⟩ s.toList

end Partitura.ManuScript
