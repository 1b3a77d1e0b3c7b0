import Partitura.Text.CaseRuns
import Partitura.Text.Casing

/-!
# Lower-case text

Lower-casing a whole text: one character for one, except that a dotted capital I keeps its dot as a
combining mark and that a capital sigma at the end of a word takes its final form.
-/

namespace Partitura.Text

/-- Whether the run of upper-case code points holds `n`. -/
def CaseRun.has (run : CaseRun) (n : Nat) : Bool :=
  run.first ≤ n && n ≤ run.last && (n - run.first) % run.step == 0

/-- The lower-case form of a character that has one of its own, and the character itself
otherwise. -/
def lowerChar (c : Char) : Char :=
  if c.toNat < 128 then c.toLower
  else match caseRuns.find? (·.has c.toNat) with
    | some run => Char.ofNat ((c.toNat : Int) + run.shift).toNat
    | none => c

/-- Lower-cases the characters that follow `before`, the characters read so far, the last one first.
A capital sigma ends a word if a cased character comes before it and none after it. -/
def lowerFrom (before : List Char) : List Char → List Char
  | [] => []
  | c :: r =>
    let here :=
      if c == 'İ' then ['i', Char.ofNat 0x307]
      else if c == 'Σ' && meetsCased before && !meetsCased r then ['ς']
      else [lowerChar c]
    here ++ lowerFrom (c :: before) r

/-- The lower-case form of a text. -/
def lower (s : String) : String := String.ofList (lowerFrom [] s.toList)

end Partitura.Text
