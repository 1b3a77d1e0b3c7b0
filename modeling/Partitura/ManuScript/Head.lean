import Partitura.Text.Class

/-!
# Heads of members

The start of a member in a plugin file, found without its context: a name, blanks, and an opening
quote.
-/

namespace Partitura.ManuScript

/-- What follows the blanks, of which there is at least one. -/
def afterBlanks? (cs : List Char) : Option (List Char) :=
  match cs with
  | [] => none
  | c :: r => if Text.isBlank c then some (r.dropWhile Text.isBlank) else none

/-- A name at the front, after blanks, then blanks and a quote: the name and what follows the quote.
`first` and `more` say which characters a name starts with and goes on with. -/
def head? (first more : Char → Bool) (cs : List Char) : Option (List Char × List Char) :=
  match cs.dropWhile Text.isBlank with
  | [] => none
  | c :: r =>
    if first c then
      match afterBlanks? (r.dropWhile more) with
      | some ('"' :: rest) => some (c :: r.takeWhile more, rest)
      | _ => none
    else none

/-- A head whose name is any word. -/
def wordHead? : List Char → Option (List Char × List Char) := head? Text.isWordChar Text.isWordChar

/-- A head whose name is a plain ASCII name. -/
def plainHead? : List Char → Option (List Char × List Char) :=
  head? Text.isNameStart Text.isNameChar

theorem length_of_afterBlanks? {cs r : List Char} (h : afterBlanks? cs = some r) :
    r.length < cs.length := by
  unfold afterBlanks? at h
  split at h
  · simp at h
  · next c s =>
    split at h
    · have : (s.dropWhile Text.isBlank).length ≤ s.length := (List.dropWhile_suffix _).length_le
      simp only [Option.some.injEq] at h
      rw [← h, List.length_cons]
      omega
    · simp at h

theorem length_of_head? {first more : Char → Bool} {cs name rest : List Char}
    (h : head? first more cs = some (name, rest)) : rest.length < cs.length := by
  unfold head? at h
  have hb : (cs.dropWhile Text.isBlank).length ≤ cs.length := (List.dropWhile_suffix _).length_le
  split at h
  · simp at h
  · next c r eq =>
    rw [eq, List.length_cons] at hb
    have hm : (r.dropWhile more).length ≤ r.length := (List.dropWhile_suffix _).length_le
    split at h
    · split at h
      · next s hs =>
        have := length_of_afterBlanks? hs
        simp only [Option.some.injEq, Prod.mk.injEq] at h
        rw [← h.2]
        simp only [List.length_cons] at this
        omega
      · simp at h
    · simp at h

end Partitura.ManuScript
