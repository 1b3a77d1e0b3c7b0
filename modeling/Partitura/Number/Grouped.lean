/-!
# Numbers in groups of three digits
-/

namespace Partitura.Number

/-- Puts a comma after every third digit, from the end; the digits come in reverse. -/
def groupReversed : List Char → List Char
  | a :: b :: c :: d :: r => a :: b :: c :: ',' :: groupReversed (d :: r)
  | r => r

/-- A number with commas between groups of three digits. -/
def grouped (n : Nat) : String :=
  String.ofList (groupReversed (Nat.toDigits 10 n).reverse).reverse

end Partitura.Number
