import Partitura.ManuScript.Analysis
import Partitura.ManuScript.Lexer
import Partitura.ManuScript.Reader

/-!
# Checking the code of a method

The issues of the characters, then those of the grammar and of the names in the order of reading.
-/

namespace Partitura.ManuScript

/-- `MethodBodyChecker.check`: checks a list of tokens without the one that ends the text. -/
def checkTokens (env : Surroundings) (fin : Position) (ts : List Token) : List Diagnostic :=
  env.analyse {} (Reader.program fin ts)

/-- `check_method_body`: checks the code of a method that starts at the place `p`. -/
def checkBody (env : Surroundings) (p : Position) (body : String) : List Diagnostic :=
  let lexed := lexBody p body
  lexed.issues ++ checkTokens env lexed.fin lexed.tokens

end Partitura.ManuScript
