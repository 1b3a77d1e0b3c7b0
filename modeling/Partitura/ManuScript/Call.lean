import Partitura.ManuScript.Lexer

/-!
# Calls in a text

Calls found by their shape alone: a name, perhaps after an object and a point, and an opening
parenthesis. The arguments are counted by the commas between them; calls among the arguments are not
looked at.
-/

namespace Partitura.ManuScript

/-- A call, at the place of the name that is called. -/
structure Call where
  pos : Position
  object : Option String
  name : String
  arguments : Nat
deriving DecidableEq, Repr

namespace Call

/-- Counts the arguments after an opening parenthesis, inside `depth + 1` of them: one more than the
commas of this call, unless it holds nothing but commas and comments. -/
def countArguments (depth commas : Nat) (filled : Bool) : List Token → Nat × List Token
  | [] => (if filled then commas + 1 else commas, [])
  | t :: r =>
    match t.kind with
    | .lparen => countArguments (depth + 1) commas true r
    | .rparen =>
      match depth with
      | 0 => (if filled then commas + 1 else commas, r)
      | d + 1 => countArguments d commas filled r
    | .comma =>
      if depth = 0 then countArguments depth (commas + 1) filled r
      else countArguments depth commas true r
    | .comment => countArguments depth commas filled r
    | _ => countArguments depth commas true r

theorem length_countArguments_le (depth commas : Nat) (filled : Bool) (ts : List Token) :
    (countArguments depth commas filled ts).2.length ≤ ts.length := by
  fun_induction countArguments depth commas filled ts <;> simp_all <;> omega

/-- The calls of a list of tokens. -/
def ofTokens (ts : List Token) : List Call :=
  match ts with
  | [] => []
  | t :: r =>
    if t.kind = .identifier then
      match r with
      | d :: m :: s =>
        if d.kind = .dot then
          if m.kind = .identifier then ofName (some t.text) m s else ofTokens (d :: m :: s)
        else ofName none t (d :: m :: s)
      | s => ofName none t s
    else ofTokens r
termination_by 2 * ts.length
where
  /-- The call of `name`, if a parenthesis follows, and the calls after it. -/
  ofName (object : Option String) (name : Token) (ts : List Token) : List Call :=
    match ts with
    | [] => []
    | t :: r =>
      if t.kind = .lparen then
        match h : countArguments 0 0 false r with
        | (n, rest) =>
          have : rest.length ≤ r.length := by
            have := length_countArguments_le 0 0 false r
            rw [h] at this
            exact this
          ⟨name.pos, object, name.text, n⟩ :: ofTokens rest
      else ofTokens (t :: r)
  termination_by 2 * ts.length + 1

/-- `get_method_calls`: the calls of the text of a plugin. -/
def ofPlugin (s : String) : List Call := ofTokens (lexPlugin s).all

end Call

end Partitura.ManuScript
