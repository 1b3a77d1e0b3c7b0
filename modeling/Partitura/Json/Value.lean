import Partitura.Number.Binary64

/-!
# JSON values

Integers and floating-point numbers are kept apart; the members of an object keep their order.
-/

namespace Partitura

/-- A JSON value. -/
inductive Json where
  | null
  | bool (b : Bool)
  | int (n : Int)
  | real (x : Number.Binary64)
  | string (s : String)
  | array (items : List Json)
  | object (members : List (String × Json))
deriving Repr, Inhabited

namespace Json

/-- The member of an object under a key. -/
def get? (key : String) : Json → Option Json
  | object ms => ms.lookup key
  | _ => none

/-- The members of an object; nothing else has any. -/
def members : Json → List (String × Json)
  | object ms => ms
  | _ => []

/-- The items of an array; nothing else has any. -/
def items : Json → List Json
  | array xs => xs
  | _ => []

/-- The text of a string. -/
def text? : Json → Option String
  | string s => some s
  | _ => none

/-- The value of an integer. -/
def int? : Json → Option Int
  | int n => some n
  | _ => none

/-- The value of a truth value. -/
def bool? : Json → Option Bool
  | bool b => some b
  | _ => none

/-- An object with a member under a key, in the place of the one it had. -/
def insertMember (key : String) (v : Json) : List (String × Json) → List (String × Json)
  | [] => [(key, v)]
  | (k, w) :: ms => if k = key then (k, v) :: ms else (k, w) :: insertMember key v ms

end Json

end Partitura
