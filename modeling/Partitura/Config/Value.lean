import Partitura.Config.Moment
import Partitura.Json.Value
import Partitura.Number.Literal
import Partitura.Number.Shortest
import Partitura.Text.Quoted

/-!
# Values of settings

What a configuration may hold under a key, and the words for it.
-/

namespace Partitura.Config

/-- A value of a setting. The members of a table keep their order. -/
inductive Value where
  | nothing
  | truth (b : Bool)
  | int (n : Int)
  | real (x : Number.Binary64)
  | text (s : String)
  | moment (m : Moment)
  | list (items : List Value)
  | table (members : List (String × Value))
deriving Repr, Inhabited

namespace Value

mutual

/-- A value as it is shown inside of a list: texts in quotes. -/
def shown : Value → String
  | nothing => "None"
  | truth b => if b then "True" else "False"
  | int n => toString n
  | real x => x.render
  | text s => Text.quoted s
  | moment m => m.shown
  | list [] => "[]"
  | list (v :: vs) => "[" ++ shown v ++ shownItems vs ++ "]"
  | table [] => "\x7b\x7d"
  | table ((k, v) :: ms) => "\x7b" ++ Text.quoted k ++ ": " ++ shown v ++ shownMembers ms ++ "\x7d"

/-- The items after the first one. -/
def shownItems : List Value → String
  | [] => ""
  | v :: vs => ", " ++ shown v ++ shownItems vs

/-- The members after the first one. -/
def shownMembers : List (String × Value) → String
  | [] => ""
  | (k, v) :: ms => ", " ++ Text.quoted k ++ ": " ++ shown v ++ shownMembers ms

end

/-- The words for a value: a text stands for itself. -/
def words : Value → String
  | text s => s
  | moment m => m.render
  | v => v.shown

mutual

/-- Whether the words for a value can be written: no integer in it has too many digits. -/
def isWritable : Value → Bool
  | int n => n.natAbs < 10 ^ Number.digitLimit
  | list vs => areWritable vs
  | table ms => membersWritable ms
  | _ => true

/-- Whether all items can be written. -/
def areWritable : List Value → Bool
  | [] => true
  | v :: vs => isWritable v && areWritable vs

/-- Whether all members can be written. -/
def membersWritable : List (String × Value) → Bool
  | [] => true
  | (_, v) :: ms => isWritable v && membersWritable ms

end

/-- Whether a value counts as something: not nothing, not false, not zero, not empty. -/
def isSomething : Value → Bool
  | nothing => false
  | truth b => b
  | int n => n != 0
  | real x => !x.isZero
  | text s => s != ""
  | moment _ => true
  | list vs => !vs.isEmpty
  | table ms => !ms.isEmpty

/-- Whether a value has parts. -/
def hasParts : Value → Bool
  | list _ => true
  | table _ => true
  | _ => false

/-- The name of the kind of a value. -/
def kind : Value → String
  | nothing => "NoneType"
  | truth _ => "bool"
  | int _ => "int"
  | real _ => "float"
  | text _ => "str"
  | moment m => m.kind
  | list _ => "list"
  | table _ => "dict"

/-- Whether a name is found in a value: as a key, as an item, or as a part of a text. -/
def mentions (name : String) : Value → Bool
  | text s => Text.contains s name
  | list vs => vs.any fun v => match v with
    | text s => s == name
    | _ => false
  | table ms => ms.any (·.1 == name)
  | _ => false

mutual

/-- The value of a JSON value. -/
def ofJson : Json → Value
  | .null => nothing
  | .bool b => truth b
  | .int n => int n
  | .real x => real x
  | .string s => text s
  | .array xs => list (ofJsonItems xs)
  | .object ms => table (ofJsonMembers ms)

/-- The values of JSON items. -/
def ofJsonItems : List Json → List Value
  | [] => []
  | x :: xs => ofJson x :: ofJsonItems xs

/-- The values of JSON members. -/
def ofJsonMembers : List (String × Json) → List (String × Value)
  | [] => []
  | (k, x) :: ms => (k, ofJson x) :: ofJsonMembers ms

end

end Value

end Partitura.Config
