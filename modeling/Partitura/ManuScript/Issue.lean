import Partitura.ManuScript.Token

/-!
# Issues

What can be wrong with a plugin or with the code of a method: the cause, the rule that it breaks,
and the words in which it is told. A diagnostic is an issue with its place.
-/

namespace Partitura.ManuScript

/-- How grave an issue is. -/
inductive Severity where
  | error
  | warning
deriving DecidableEq, Repr

/-- A rule, known by its severity and number. -/
structure Rule where
  severity : Severity
  number : Nat
deriving DecidableEq, Repr

/-- The code of a rule: `MS-`, a letter for the severity and three digits. -/
def Rule.code (r : Rule) : String :=
  let digits := Nat.toDigits 10 r.number
  "MS-" ++ (match r.severity with | .error => "E" | .warning => "W") ++
    String.ofList (List.replicate (3 - digits.length) '0' ++ digits)

/-- The causes of complaint. -/
inductive Issue where
  -- brackets and the outer shape of a plugin
  | unmatchedClose (found : Char)
  | mismatchedClose (wanted : Char) (opened : Position) (found : Char)
  | unclosed (opener : Char)
  | noOpeningBrace
  | noClosingBrace
  | noInitialize
  | noMenuEntry
  | redefined (name : String) (firstLine : Int)
  | reservedName (name : String)
  | trailingBlanks
  | longLine (length : Nat)
  | unclosedMethod (name : String)
  | loopBound (bound : String) (less : Nat)
  -- calls, seen without their context
  | tooFewArguments (name : String) (least got : Int)
  | tooManyArguments (name : String) (most got : Int)
  -- the tokens of a body
  | unterminatedString
  | unexpectedCharacter (c : Char)
  -- the grammar of a body
  | strayBrace
  | expected (what : String)
  | loopHead (what : String)
  | switchEntry
  | missingBlock (owner : String)
  | missingSemicolon
  | missingExpression
  | missingValue
  | missingOperand
  | missingName (what : String)
  | unexpectedToken (text : String)
  -- names and values in a body
  | undefinedVariable (name : String)
  | unknownMethod (name object : String)
  | unknownFunction (name : String)
  | argumentCount (name wanted : String) (got : Nat)
  | unknownProperty (name object : String) (suggestion : Option String)
  | unusedVariable (name : String)
  | unreachable
  | constantCondition (what : String)
  | selfAssignment (name : String)
  | emptyStatement
  | zeroDivisor (operation : String)
  | selfComparison (name op outcome : String)
  | shadowsParameter (name : String)
deriving DecidableEq, Repr

namespace Issue

/-- The rule that an issue breaks. -/
def rule : Issue → Rule
  | unmatchedClose _ => ⟨.error, 1⟩
  | mismatchedClose .. => ⟨.error, 2⟩
  | unclosed _ => ⟨.error, 3⟩
  | noOpeningBrace => ⟨.error, 10⟩
  | noClosingBrace => ⟨.error, 11⟩
  | noInitialize => ⟨.warning, 10⟩
  | noMenuEntry => ⟨.warning, 11⟩
  | redefined .. => ⟨.warning, 27⟩
  | reservedName _ => ⟨.warning, 1⟩
  | trailingBlanks => ⟨.warning, 2⟩
  | longLine _ => ⟨.warning, 3⟩
  | unclosedMethod _ => ⟨.error, 50⟩
  | loopBound .. => ⟨.warning, 21⟩
  | tooFewArguments .. => ⟨.error, 20⟩
  | tooManyArguments .. => ⟨.error, 21⟩
  | unterminatedString => ⟨.error, 30⟩
  | unexpectedCharacter _ => ⟨.error, 31⟩
  | strayBrace => ⟨.error, 1⟩
  | expected _ => ⟨.error, 40⟩
  | loopHead _ => ⟨.error, 41⟩
  | switchEntry => ⟨.error, 42⟩
  | missingBlock _ => ⟨.error, 43⟩
  | missingSemicolon => ⟨.error, 44⟩
  | missingExpression => ⟨.error, 45⟩
  | missingValue => ⟨.error, 45⟩
  | missingOperand => ⟨.error, 46⟩
  | missingName _ => ⟨.error, 47⟩
  | unexpectedToken _ => ⟨.error, 48⟩
  | undefinedVariable _ => ⟨.warning, 20⟩
  | unknownMethod .. => ⟨.warning, 22⟩
  | unknownFunction _ => ⟨.warning, 22⟩
  | argumentCount .. => ⟨.warning, 23⟩
  | unknownProperty .. => ⟨.warning, 24⟩
  | unusedVariable _ => ⟨.warning, 25⟩
  | unreachable => ⟨.warning, 26⟩
  | constantCondition _ => ⟨.warning, 28⟩
  | selfAssignment _ => ⟨.warning, 29⟩
  | emptyStatement => ⟨.warning, 30⟩
  | zeroDivisor _ => ⟨.warning, 31⟩
  | selfComparison .. => ⟨.warning, 32⟩
  | shadowsParameter _ => ⟨.warning, 33⟩

/-- Whether the issue is an error and not a warning. -/
def isError (i : Issue) : Bool := i.rule.severity == .error

/-- A text between apostrophes. -/
def tick (s : String) : String := "'" ++ s ++ "'"

/-- The words in which an issue is told. -/
def message : Issue → String
  | unmatchedClose c => "Unmatched closing " ++ tick c.toString
  | mismatchedClose wanted opened found =>
    "Mismatched brace: expected " ++ tick wanted.toString ++ " (opened at " ++
      toString opened.line ++ ":" ++ toString opened.col ++ "), got " ++ tick found.toString
  | unclosed c => "Unclosed " ++ tick c.toString
  | noOpeningBrace => "Plugin must start with '\x7b'"
  | noClosingBrace => "Plugin must end with '\x7d'"
  | noInitialize => "Missing 'Initialize' method"
  | noMenuEntry => "Initialize should call 'AddToPluginsMenu'"
  | redefined name first =>
    "Duplicate method definition " ++ tick name ++ " (first defined at line " ++
      toString first ++ ")"
  | reservedName name => "Method name " ++ tick name ++ " is a reserved word"
  | trailingBlanks => "Trailing whitespace"
  | longLine n => "Line too long (" ++ toString n ++ " chars)"
  | unclosedMethod name =>
    "Method " ++ tick name ++
      " body has no closing '\x7d'; possibly unescaped '\"' in comment or string"
  | loopBound bound less =>
    "For loop end value '" ++ bound ++ " - " ++ toString less ++ "' could be negative if " ++
      bound ++ " < " ++ toString less ++ "; consider adding a guard"
  | tooFewArguments name least got =>
    name ++ "() requires at least " ++ toString least ++ " args, got " ++ toString got
  | tooManyArguments name most got =>
    name ++ "() accepts at most " ++ toString most ++ " args, got " ++ toString got
  | unterminatedString => "Unterminated string"
  | unexpectedCharacter c => "Unexpected character " ++ tick c.toString
  | strayBrace => "Unexpected '\x7d'"
  | expected what => "Expected " ++ what
  | loopHead what => "Expected " ++ what
  | switchEntry => "Expected 'case' or 'default' in switch statement"
  | missingBlock owner => "Expected '\x7b' after " ++ owner
  | missingSemicolon => "Expected ';' after statement"
  | missingExpression => "Expected expression"
  | missingValue => "Expected expression after '='"
  | missingOperand => "Expected expression after operator"
  | missingName what => "Expected " ++ what
  | unexpectedToken text => "Unexpected token " ++ tick text
  | undefinedVariable name => "Variable " ++ tick name ++ " may be undefined"
  | unknownMethod name object => "Method " ++ tick name ++ " not found on " ++ tick object
  | unknownFunction name => "Function " ++ tick name ++ " is not a known builtin or method"
  | argumentCount name wanted got =>
    tick name ++ " expects " ++ wanted ++ " argument(s), got " ++ toString got
  | unknownProperty name object suggestion =>
    "Property " ++ tick name ++ " not found on " ++ tick object ++
      (match suggestion with
        | some s => if s.isEmpty then "" else "; did you mean " ++ tick s ++ "?"
        | none => "")
  | unusedVariable name => "Variable " ++ tick name ++ " is assigned but never used"
  | unreachable => "Unreachable code after return statement"
  | constantCondition what => "Condition is always " ++ what
  | selfAssignment name => "Self-assignment '" ++ name ++ " = " ++ name ++ "' has no effect"
  | emptyStatement => "Empty statement (lone ';')"
  | zeroDivisor operation => operation ++ " by zero"
  | selfComparison name op outcome =>
    "Comparison '" ++ name ++ " " ++ op ++ " " ++ name ++ "' is always " ++ outcome
  | shadowsParameter name => "Variable " ++ tick name ++ " shadows a parameter"

/-- The code of the rule that an issue breaks. -/
def code (i : Issue) : String := i.rule.code

end Issue

/-- `LintError`: an issue and the place where it was found. -/
structure Diagnostic where
  pos : Position
  issue : Issue
deriving DecidableEq, Repr

namespace Diagnostic

/-- The code of the rule that was broken. -/
def code (d : Diagnostic) : String := d.issue.code

/-- The words of the complaint. -/
def message (d : Diagnostic) : String := d.issue.message

/-- Whether it is an error and not a warning. -/
def isError (d : Diagnostic) : Bool := d.issue.isError

/-- The line in which a diagnostic is reported. -/
def render (d : Diagnostic) : String :=
  toString d.pos.line ++ ":" ++ toString d.pos.col ++ " [" ++ d.code ++ "] " ++ d.message

end Diagnostic

end Partitura.ManuScript
