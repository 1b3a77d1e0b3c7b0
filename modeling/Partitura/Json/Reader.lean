import Partitura.Json.Value
import Partitura.Number.Literal

/-!
# Reading JSON

A reader of values from the characters of a text. Each step leaves a rest that is shorter, which is
why reading ends. Of two members under one key the later one counts. A unit of a surrogate pair that
stands alone reads as U+FFFD.
-/

namespace Partitura.Json

/-- A value read from the front of `cs`, and what follows. -/
structure Read (α : Type) (cs : List Char) where
  value : α
  rest : List Char
  shorter : rest.length < cs.length

/-- White space between tokens. -/
def skip (cs : List Char) : List Char :=
  cs.dropWhile fun c => c == ' ' || c == '\n' || c == '\t' || c == '\r'

theorem length_skip_le (cs : List Char) : (skip cs).length ≤ cs.length :=
  (List.dropWhile_suffix _).length_le

/-- The value of a hexadecimal digit. -/
def hexValue? (c : Char) : Option Nat :=
  if '0' ≤ c ∧ c ≤ '9' then some (c.toNat - 48)
  else if 'a' ≤ c ∧ c ≤ 'f' then some (c.toNat - 87)
  else if 'A' ≤ c ∧ c ≤ 'F' then some (c.toNat - 55)
  else none

/-- The value of four hexadecimal digits. -/
def unit? (a b c d : Char) : Option Nat := do
  let a ← hexValue? a
  let b ← hexValue? b
  let c ← hexValue? c
  let d ← hexValue? d
  some (((a * 16 + b) * 16 + c) * 16 + d)

/-- The character after a backslash, other than an escape by code. -/
def simpleEscape? (c : Char) : Option Char :=
  match c with
  | '"' => some '"'
  | '\\' => some '\\'
  | '/' => some '/'
  | 'b' => some (Char.ofNat 8)
  | 'f' => some (Char.ofNat 12)
  | 'n' => some '\n'
  | 'r' => some '\r'
  | 't' => some '\t'
  | _ => none

/-- The characters that UTF-16 units stand for, a lone surrogate for U+FFFD. -/
def ofUnits : List Nat → List Char
  | [] => []
  | h :: l :: r =>
    if 0xD800 ≤ h ∧ h < 0xDC00 ∧ 0xDC00 ≤ l ∧ l < 0xE000 then
      Char.ofNat (0x10000 + (h - 0xD800) * 0x400 + (l - 0xDC00)) :: ofUnits r
    else if 0xD800 ≤ h ∧ h < 0xE000 then Char.ofNat 0xFFFD :: ofUnits (l :: r)
    else Char.ofNat h :: ofUnits (l :: r)
  | [h] => if 0xD800 ≤ h ∧ h < 0xE000 then [Char.ofNat 0xFFFD] else [Char.ofNat h]

/-- The characters of a string after its opening quote; `units` are escaped units not yet turned
into characters. -/
def chars? (units : List Nat) (acc : List Char) : List Char → Option (List Char × List Char)
  | '"' :: r => some ((acc.reverse ++ ofUnits units.reverse), r)
  | '\\' :: 'u' :: a :: b :: c :: d :: r =>
    match unit? a b c d with
    | some n => chars? (n :: units) acc r
    | none => none
  | '\\' :: e :: r =>
    match simpleEscape? e with
    | some c => chars? [] (c :: (ofUnits units.reverse).reverse ++ acc) r
    | none => none
  | c :: r => chars? [] (c :: (ofUnits units.reverse).reverse ++ acc) r
  | [] => none

theorem length_of_chars? {units : List Nat} {acc cs : List Char} {s r : List Char}
    (h : chars? units acc cs = some (s, r)) : r.length < cs.length := by
  fun_induction chars? units acc cs generalizing s r <;>
    simp only [List.length_cons, List.length_nil] <;> grind

/-- Whether a character may belong to a number. -/
def isNumberChar (c : Char) : Bool :=
  c.isDigit || c == '-' || c == '+' || c == '.' || c == 'e' || c == 'E'

/-- The number that a text stands for: an integer unless it has a point or an exponent. -/
def number? (cs : List Char) : Option Json :=
  let s := String.ofList cs
  if cs.all fun c => c.isDigit || c == '-' then (Number.readInt s).toOption.map int
  else (Number.readReal s).toOption.map real

/-- A fixed word at the front. -/
def word? (w : List Char) (v : Json) (cs : List Char) (h : 0 < w.length) : Option (Read Json cs) :=
  if hp : w.isPrefixOf cs then
    some ⟨v, cs.drop w.length, by
      have := (List.isPrefixOf_iff_prefix.1 hp).length_le
      simp only [List.length_drop]
      omega⟩
  else none

mutual

/-- A value at the front of the text. -/
def value? (cs : List Char) : Option (Read Json cs) :=
  match hs : skip cs with
  | [] => none
  | c :: r =>
    have hl : r.length < cs.length := by
      have := length_skip_le cs
      rw [hs, List.length_cons] at this
      omega
    if c == '"' then
      match hc : chars? [] [] r with
      | some (s, u) => some ⟨.string (String.ofList s), u, Nat.lt_trans (length_of_chars? hc) hl⟩
      | none => none
    else if c == '[' then
      match he : skip r with
      | ']' :: u =>
        some ⟨.array [], u, by
          have := length_skip_le r
          rw [he, List.length_cons] at this
          omega⟩
      | _ =>
        match items? r with
        | some ⟨xs, u, h⟩ => some ⟨.array xs, u, by omega⟩
        | none => none
    else if c == '\x7b' then
      match he : skip r with
      | '\x7d' :: u =>
        some ⟨.object [], u, by
          have := length_skip_le r
          rw [he, List.length_cons] at this
          omega⟩
      | _ =>
        match members? [] r with
        | some ⟨ms, u, h⟩ => some ⟨.object ms, u, by omega⟩
        | none => none
    else
      let words : List (List Char × Json) :=
        [("true".toList, .bool true), ("false".toList, .bool false), ("null".toList, .null)]
      match words.find? fun w => w.1.isPrefixOf (c :: r) with
      | some (w, v) =>
        some ⟨v, r.drop (w.length - 1), by simp only [List.length_drop]; omega⟩
      | none =>
        let digits := (c :: r).takeWhile isNumberChar
        match number? digits with
        | some v => some ⟨v, r.drop (digits.length - 1), by simp only [List.length_drop]; omega⟩
        | none => none
termination_by 3 * cs.length

/-- The items of an array that is not empty, with its closing bracket. -/
def items? (cs : List Char) : Option (Read (List Json) cs) :=
  match value? cs with
  | none => none
  | some ⟨x, r, h⟩ =>
    match hs : skip r with
    | ',' :: u =>
      have hu : u.length < r.length := by
        have := length_skip_le r
        rw [hs, List.length_cons] at this
        omega
      match items? u with
      | some ⟨xs, v, hv⟩ => some ⟨x :: xs, v, by omega⟩
      | none => none
    | ']' :: u =>
      some ⟨[x], u, by
        have := length_skip_le r
        rw [hs, List.length_cons] at this
        omega⟩
    | _ => none
termination_by 3 * cs.length + 1

/-- The members of an object that is not empty, after `done`, with its closing brace. -/
def members? (done : List (String × Json)) (cs : List Char) :
    Option (Read (List (String × Json)) cs) :=
  match hs : skip cs with
  | '"' :: r =>
    have hr : r.length < cs.length := by
      have := length_skip_le cs
      rw [hs, List.length_cons] at this
      omega
    match hc : chars? [] [] r with
    | none => none
    | some (k, u) =>
      have hu : u.length < r.length := length_of_chars? hc
      match ht : skip u with
      | ':' :: v =>
        have hv : v.length < u.length := by
          have := length_skip_le u
          rw [ht, List.length_cons] at this
          omega
        match value? v with
        | none => none
        | some ⟨x, w, hw⟩ =>
          let now := insertMember (String.ofList k) x done
          match he : skip w with
          | ',' :: z =>
            have hz : z.length < w.length := by
              have := length_skip_le w
              rw [he, List.length_cons] at this
              omega
            match members? now z with
            | some ⟨ms, q, hq⟩ => some ⟨ms, q, by omega⟩
            | none => none
          | '\x7d' :: z =>
            some ⟨now, z, by
              have := length_skip_le w
              rw [he, List.length_cons] at this
              omega⟩
          | _ => none
      | _ => none
  | _ => none
termination_by 3 * cs.length + 2

end

/-- Reads a text that holds one value. -/
def parse? (s : String) : Option Json :=
  match value? s.toList with
  | some ⟨v, r, _⟩ => if (skip r).isEmpty then some v else none
  | none => none

end Partitura.Json
