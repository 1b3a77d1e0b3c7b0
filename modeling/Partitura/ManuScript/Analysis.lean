import Partitura.ManuScript.Event
import Partitura.ManuScript.Language
import Partitura.Text.Distance

/-!
# The names of a body

What the events of a body mean for its names: which variables are assigned, read and never used,
which calls and members the language knows, which statements cannot be reached. `complaints` says
what is wrong with an event in a given state, `next` how the state goes on, and `analyse` runs
through all events.
-/

namespace Partitura.ManuScript

/-- What is known about a body from outside: the language, the names defined before it starts
(parameters and variables of the plugin), and the methods of the plugin. -/
structure Surroundings where
  language : Language
  defined : List String
  methods : List String

/-- What has been seen of a body so far. -/
structure Scope where
  /-- Names that the body has given a value. -/
  locals : List String := []
  /-- For each assigned name the token of its first assignment, in order. -/
  assignments : List Token := []
  /-- Names that have been read. -/
  used : List String := []
  /-- Whether a return has ended in the present block. -/
  returned : Bool := false
  /-- Whether unreachable code has been told in the present block. -/
  warned : Bool := false
  /-- The last two of the blocks around. -/
  outer : List (Bool × Bool) := []
deriving DecidableEq, Repr

namespace Scope

/-- The token of the first assignment to a name. -/
def firstAssignment? (s : Scope) (name : String) : Option Token :=
  s.assignments.find? (·.text == name)

/-- The state after an event. -/
def next (s : Scope) : Event → Scope
  | .statement _ => if s.returned then { s with warned := true } else s
  | .returned => { s with returned := true }
  | .opened =>
    { s with returned := false, warned := false, outer := (s.returned, s.warned) :: s.outer }
  | .closed =>
    match s.outer with
    | (r, w) :: outer => { s with returned := r, warned := w, outer }
    | [] => s
  | .assigned t =>
    { s with
      locals := t.text :: s.locals
      assignments :=
        if (s.firstAssignment? t.text).isSome then s.assignments else s.assignments ++ [t] }
  | .bound name => { s with locals := name :: s.locals, used := name :: s.used }
  | .read t _ =>
    if s.firstAssignment? t.text = some t then s else { s with used := t.text :: s.used }
  | _ => s

end Scope

namespace Surroundings

/-- `_check_arg_count`: the complaint about a number of arguments that no form of a callee takes;
nothing is known without any form. -/
def arityComplaints (name : Token) (got : Nat) (arities : List Arity) : List Diagnostic :=
  if arities.isEmpty || arities.any (·.admits got) then []
  else [⟨name.pos, .argumentCount name.text (Text.join " or " (arities.map (·.render))) got⟩]

/-- `_check_call`: the complaints about a call. -/
def callComplaints (env : Surroundings) (receiver : Option String) (name : Token) (got : Nat) :
    List Diagnostic :=
  match receiver.bind env.language.object? with
  | some o =>
    match o.method? name.text with
    | none => [⟨name.pos, .unknownMethod name.text o.name⟩]
    | some m => arityComplaints name got m.arities
  | none =>
    match env.language.function? name.text with
    | some f => arityComplaints name got [f.arity]
    | none =>
      if env.methods.contains name.text || (env.language.object? name.text).isSome ||
          env.language.hasMethod name.text then []
      else [⟨name.pos, .unknownFunction name.text⟩]

/-- `_check_property`: the complaints about a member that is not called. -/
def memberComplaints (env : Surroundings) (receiver : String) (name : Token) : List Diagnostic :=
  match env.language.object? receiver with
  | none => []
  | some o =>
    if o.properties.contains name.text || (o.method? name.text).isSome then []
    else
      let members := o.properties ++ o.methods.map (·.name)
      [⟨name.pos, .unknownProperty name.text receiver (Text.similar? name.text members)⟩]

/-- What is wrong with an event. -/
def complaints (env : Surroundings) (s : Scope) : Event → List Diagnostic
  | .issue d => [d]
  | .statement pos => if s.returned && !s.warned then [⟨pos, .unreachable⟩] else []
  | .assigned t =>
    if env.defined.contains t.text && !s.locals.contains t.text then
      [⟨t.pos, .shadowsParameter t.text⟩]
    else []
  | .read t qualified =>
    if qualified || env.defined.contains t.text || s.locals.contains t.text ||
      env.language.isGlobal t.text then []
    else [⟨t.pos, .undefinedVariable t.text⟩]
  | .called receiver name got => env.callComplaints receiver name got
  | .accessed receiver name => env.memberComplaints receiver name
  | _ => []

/-- The complaints about names that were assigned and never read. -/
def unused (env : Surroundings) (s : Scope) : List Diagnostic :=
  (s.assignments.filter fun t => !s.used.contains t.text &&
    !env.defined.contains t.text).map fun t =>
    ⟨t.pos, .unusedVariable t.text⟩

/-- The complaints about a sequence of events, in their order, and about the names left unused at
its end. -/
def analyse (env : Surroundings) (s : Scope) : List Event → List Diagnostic
  | [] => env.unused s
  | e :: es => env.complaints s e ++ env.analyse (s.next e) es

end Surroundings

end Partitura.ManuScript
