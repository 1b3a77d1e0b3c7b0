import Partitura.Json.Value
import Partitura.ManuScript.Language

/-!
# Language references in JSON

A reference document has the members `objects`, `builtin_functions` and `constants`. Each object
lists its methods, with the least and the most arguments of every form, and its properties; each
function lists its parameters. What is left out is empty or zero.
-/

namespace Partitura.ManuScript

/-- The arity of one form of a method. -/
def Arity.ofJson (v : Json) : Arity :=
  ⟨((v.get? "min_params").bind Json.int?).getD 0, ((v.get? "max_params").bind Json.int?).getD 0⟩

/-- The items of an optional member that is a list. -/
def listMember (key : String) (v : Json) : List Json := (v.get? key).elim [] Json.items

/-- The members of an optional member that is an object. -/
def tableMember (key : String) (v : Json) : List (String × Json) :=
  (v.get? key).elim [] Json.members

/-- A method with its forms. -/
def Method.ofJson (name : String) (v : Json) : Method :=
  ⟨name, (listMember "signatures" v).map Arity.ofJson⟩

/-- A type of objects. -/
def ObjectType.ofJson (name : String) (v : Json) : ObjectType :=
  ⟨name, (tableMember "methods" v).map fun (n, m) => Method.ofJson n m,
    (listMember "properties" v).filterMap Json.text?⟩

/-- A function. -/
def Function.ofJson (name : String) (v : Json) : Function :=
  ⟨name, (listMember "params" v).filterMap Json.text?⟩

/-- `_load_lang_data`: a whole reference. -/
def Language.ofJson (v : Json) : Language :=
  ⟨(tableMember "objects" v).map fun (n, o) => ObjectType.ofJson n o,
    (tableMember "builtin_functions" v).map fun (n, f) => Function.ofJson n f,
    (tableMember "constants" v).map (·.1)⟩

end Partitura.ManuScript
