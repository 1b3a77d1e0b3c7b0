import Partitura.ManuScript.Issue

/-!
# What a body says

The code of a method, read as a sequence of events in the order of reading. Reading the tokens gives
the events; what they mean for the names of the body is a fold over them.
-/

namespace Partitura.ManuScript

/-- One thing that the code of a method says. -/
inductive Event where
  /-- An issue that shows in the tokens alone. -/
  | issue (d : Diagnostic)
  /-- A statement starts here. -/
  | statement (pos : Position)
  /-- A return statement has ended. -/
  | returned
  /-- A block starts. -/
  | opened
  /-- A block ends. -/
  | closed
  /-- The name before the sign of an assignment. -/
  | assigned (target : Token)
  /-- The variable of a loop. -/
  | bound (name : String)
  /-- A name that stands as an operand; `qualified` if a call or a member access follows at once. -/
  | read (name : Token) (qualified : Bool)
  /-- A call; the receiver is the name that stands first, if a member is called on it. -/
  | called (receiver : Option String) (name : Token) (arguments : Nat)
  /-- A member of a name that stands first, without a call. -/
  | accessed (receiver : String) (name : Token)
deriving DecidableEq, Repr

end Partitura.ManuScript
