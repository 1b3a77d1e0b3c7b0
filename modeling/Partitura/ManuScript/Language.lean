import Partitura.Text.Search

/-!
# The language reference

What the host program offers to a plugin: types of objects with their methods and properties,
functions, and constants. The reference is a value, so that code can be checked against any of them.
-/

namespace Partitura.ManuScript

/-- How many arguments a call may have. -/
structure Arity where
  least : Int
  most : Int
deriving DecidableEq, Repr, Inhabited

/-- Whether a call with `n` arguments fits. -/
def Arity.admits (a : Arity) (n : Int) : Bool := a.least ≤ n && n ≤ a.most

/-- The smallest range that covers both. -/
def Arity.hull (a b : Arity) : Arity := ⟨min a.least b.least, max a.most b.most⟩

/-- The range in words. -/
def Arity.render (a : Arity) : String :=
  if a.least = a.most then toString a.least else toString a.least ++ "-" ++ toString a.most

/-- A method, with one arity for each of its forms. -/
structure Method where
  name : String
  arities : List Arity
deriving DecidableEq, Repr, Inhabited

/-- A method with one form. -/
def Method.one (name : String) (least most : Int) : Method := ⟨name, [⟨least, most⟩]⟩

/-- A type of objects. -/
structure ObjectType where
  name : String
  methods : List Method := []
  properties : List String := []
deriving DecidableEq, Repr, Inhabited

/-- The method of that name. -/
def ObjectType.method? (o : ObjectType) (name : String) : Option Method :=
  o.methods.find? (·.name == name)

/-- A function that belongs to no object. A parameter whose name ends in a question mark may be left
out. -/
structure Function where
  name : String
  params : List String
deriving DecidableEq, Repr, Inhabited

/-- How many arguments a function takes. -/
def Function.arity (f : Function) : Arity :=
  ⟨(f.params.filter fun p => !Text.hasEnd p "?").length, f.params.length⟩

/-- A language reference. -/
structure Language where
  objects : List ObjectType
  functions : List Function
  constants : List String
deriving DecidableEq, Repr, Inhabited

namespace Language

/-- The type of that name. -/
def object? (l : Language) (name : String) : Option ObjectType := l.objects.find? (·.name == name)

/-- The function of that name. -/
def function? (l : Language) (name : String) : Option Function := l.functions.find? (·.name == name)

/-- Whether some type has a method of that name. -/
def hasMethod (l : Language) (name : String) : Bool :=
  l.objects.any fun o => (o.method? name).isSome

/-- Whether the name is defined everywhere: a type, a function or a constant. -/
def isGlobal (l : Language) (name : String) : Bool :=
  (l.object? name).isSome || (l.function? name).isSome || l.constants.contains name

/-- The names that are defined everywhere. -/
def globals (l : Language) : List String :=
  l.objects.map (·.name) ++ l.functions.map (·.name) ++ l.constants

/-- The arities of all methods of that name, whatever the object. -/
def methodArities (l : Language) (name : String) : List Arity :=
  l.objects.flatMap fun o => (o.method? name).elim [] (·.arities)

/-- How many arguments a call of that name may have when the object is not known: what the function
of that name takes, or else everything between the least and the most that any method of that name
takes. Sparse arrays take any number up to 99. -/
def callArity? (l : Language) (name : String) : Option Arity :=
  if name = "CreateSparseArray" then some ⟨0, 99⟩
  else match l.function? name with
    | some f => some f.arity
    | none =>
      match l.methodArities name with
      | [] => none
      | a :: rest => some (rest.foldl Arity.hull a)

/-- The names for which `callArity?` has an answer, some of them more than once. -/
def callNames (l : Language) : List String :=
  "CreateSparseArray" :: l.functions.map (·.name) ++
    l.objects.flatMap fun o => (o.methods.filter fun m => !m.arities.isEmpty).map (·.name)

end Language

end Partitura.ManuScript
