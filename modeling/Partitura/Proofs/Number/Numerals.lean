import Partitura.Number.Shortest

/-!
# The characters of written numbers

Integers are written with digits and a sign, floating-point numbers also with a point, an exponent
or a word. None of these characters has a meaning of its own in code, so a number can be put
anywhere into it.
-/

namespace Partitura.Number

/-- The characters of numbers. -/
def isNumeral (c : Char) : Bool := c.isDigit || c ∈ ".-+einfa".toList

theorem isNumeral_of_isDigit {c : Char} (h : c.isDigit = true) : isNumeral c = true := by
  rw [isNumeral, h, Bool.true_or]

theorem isNumeral_of_mem_toDigits {c : Char} {n : Nat} (h : c ∈ Nat.toDigits 10 n) :
    isNumeral c = true :=
  isNumeral_of_isDigit (Nat.isDigit_of_mem_toDigits (by decide) (by decide) h)

theorem isNumeral_of_mem_exponent (f : RealFormat) (e : Int) :
    ∀ c ∈ f.exponent e, isNumeral c = true := by
  intro c hc
  simp only [RealFormat.exponent, List.cons_append, List.mem_cons, List.mem_append] at hc
  rcases hc with rfl | hc | hc
  · split <;> decide
  · rw [List.eq_of_mem_replicate hc]
    decide
  · exact isNumeral_of_mem_toDigits hc

theorem isNumeral_of_mem_decimal (f : RealFormat) (d : Decimal) :
    ∀ c ∈ f.decimal d, isNumeral c = true := by
  have hdigits : ∀ c ∈ ((Nat.toDigits 10 d.digits).reverse.dropWhile (· == '0')).reverse,
      isNumeral c = true := by
    intro c hc
    have := (List.dropWhile_suffix (· == '0')).subset (List.mem_reverse.1 hc)
    exact isNumeral_of_mem_toDigits (List.mem_reverse.1 this)
  have hzero : isNumeral '0' = true := by decide
  have hpoint : isNumeral '.' = true := by decide
  have hmark : isNumeral 'e' = true := by decide
  rw [RealFormat.decimal]
  generalize ((Nat.toDigits 10 d.digits).reverse.dropWhile (· == '0')).reverse = ds at hdigits
  have htake (n : Nat) : ∀ c ∈ ds.take n, isNumeral c = true :=
    fun c hc => hdigits c (List.mem_of_mem_take hc)
  have hdrop (n : Nat) : ∀ c ∈ ds.drop n, isNumeral c = true :=
    fun c hc => hdigits c (List.mem_of_mem_drop hc)
  have hzeros (n : Nat) : ∀ c ∈ List.replicate n '0', isNumeral c = true := fun c hc => by
    rwa [List.eq_of_mem_replicate hc]
  split
  · refine List.forall_mem_append.2 ⟨List.forall_mem_append.2 ⟨htake 1, ?_⟩,
      List.forall_mem_cons.2 ⟨hmark, isNumeral_of_mem_exponent f _⟩⟩
    split
    · simp
    · exact List.forall_mem_cons.2 ⟨hpoint, hdrop 1⟩
  split
  · exact List.forall_mem_append.2
      ⟨List.forall_mem_cons.2 ⟨hzero, List.forall_mem_cons.2 ⟨hpoint, hzeros _⟩⟩, hdigits⟩
  · have hpart : ∀ c ∈ (if (ds.drop d.point.toNat).isEmpty then ['0'] else ds.drop d.point.toNat),
        isNumeral c = true := by
      split
      · simpa using hzero
      · exact hdrop _
    exact List.forall_mem_append.2
      ⟨List.forall_mem_append.2 ⟨htake _, hzeros _⟩, List.forall_mem_cons.2 ⟨hpoint, hpart⟩⟩

theorem isNumeral_of_mem_render (x : Binary64) : ∀ c ∈ x.render.toList, isNumeral c = true := by
  cases x with
  | nan => exact List.all_eq_true.1 (by decide)
  | infinite negative => cases negative <;> exact List.all_eq_true.1 (by decide)
  | finite negative m e =>
    have htext :
        ∀ c ∈ (if m = 0 then ['0', '.', '0'] else RealFormat.plain.decimal (Binary64.shortest m e)),
          isNumeral c = true := by
      split
      · exact List.all_eq_true.1 (by decide)
      · exact isNumeral_of_mem_decimal _ _
    rw [Binary64.render, RealFormat.render, String.toList_ofList]
    cases negative with
    | false => exact htext
    | true => exact List.forall_mem_cons.2 ⟨by decide, htext⟩

/-- An integer is written as its digits, with a sign if it is negative. -/
theorem exists_toDigits (n : Int) :
    ∃ m : Nat, (toString n).toList = Nat.toDigits 10 m ∨
      (toString n).toList = '-' :: Nat.toDigits 10 m := by
  cases n with
  | ofNat n => exact ⟨n, .inl (String.toList_ofList ..)⟩
  | negSucc n =>
    refine ⟨n + 1, .inr ?_⟩
    rw [show toString (Int.negSucc n) = "-" ++ String.ofList (Nat.toDigits 10 (n + 1)) from rfl]
    simp

theorem isNumeral_of_mem_toString (n : Int) : ∀ c ∈ (toString n).toList, isNumeral c = true := by
  obtain ⟨m, h | h⟩ := exists_toDigits n
  · rw [h]
    exact fun c hc => isNumeral_of_mem_toDigits hc
  · rw [h]
    exact List.forall_mem_cons.2 ⟨by decide, fun c hc => isNumeral_of_mem_toDigits hc⟩

end Partitura.Number
