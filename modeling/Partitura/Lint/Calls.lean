import Partitura.ManuScript.Call
import Partitura.ManuScript.Language

/-!
# Calls with a wrong number of arguments
-/

namespace Partitura.Lint

open ManuScript

/-- The complaint about a call, if its name is known and the number of arguments does not fit. -/
def callIssue? (language : Language) (c : Call) : Option Diagnostic :=
  match language.callArity? c.name with
  | none => none
  | some a =>
    if (c.arguments : Int) < a.least then some ⟨c.pos, .tooFewArguments c.name a.least c.arguments⟩
    else if a.most < c.arguments then some ⟨c.pos, .tooManyArguments c.name a.most c.arguments⟩
    else none

/-- `lint_method_calls`: the complaints about the calls of a text. -/
def callIssues (language : Language) (content : List Char) : List Diagnostic :=
  (Call.ofTokens (lex .plugin ⟨1, 1⟩ content).all).filterMap (callIssue? language)

end Partitura.Lint
