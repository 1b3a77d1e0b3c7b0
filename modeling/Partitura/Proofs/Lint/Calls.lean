import Mathlib.Data.List.Basic
import Partitura.Lint.Calls
import Partitura.ManuScript.Reference

/-!
# Calls that a language admits and calls that are flagged

A language has a range of counts for each form of each method, and one for each function.
`Language.callArity?` has a single range for each name. The single range of a name that belongs to
methods alone covers all of their forms (`admits_foldl_hull`); where a function has the same name,
its own range stands for the methods as well. So no admitted call of a name is flagged if and only
if the function of that name, if there is one, takes every count that a method of that name takes
(`callIssue?_admitted_iff`). In `Language.reference` there are names of which this fails.
-/

namespace Partitura.ManuScript

namespace Arity

variable {a b : Arity} {n : Int}

/-- Some count fits. -/
def IsInhabited (a : Arity) : Prop := 0 ≤ a.most ∧ a.least ≤ a.most

/-- Every count that fits `b` fits `a`, by the ends of the two ranges. -/
def Covers (a b : Arity) : Prop := b.IsInhabited → a.least ≤ max 0 b.least ∧ b.most ≤ a.most

theorem admits_iff : a.admits n ↔ a.least ≤ n ∧ n ≤ a.most := by
  simp [admits]

theorem covers_iff : a.Covers b ↔ ∀ n : Nat, b.admits n → a.admits n := by
  simp only [Covers, IsInhabited, admits_iff]
  constructor
  · intro h n hn
    have := h ⟨by omega, by omega⟩
    omega
  · intro h hb
    -- the two ends of `b` that are counts
    have hleast := h (max 0 b.least).toNat (by omega)
    have hmost := h b.most.toNat (by omega)
    omega

theorem admits_hull_left (h : a.admits n) : (a.hull b).admits n := by
  rw [admits_iff] at h ⊢
  simp only [hull]
  omega

theorem admits_hull_right (h : b.admits n) : (a.hull b).admits n := by
  rw [admits_iff] at h ⊢
  simp only [hull]
  omega

/-- What one of several forms takes, their common range takes. -/
theorem admits_foldl_hull {forms : List Arity} (hb : b ∈ a :: forms) (hn : b.admits n) :
    (forms.foldl hull a).admits n := by
  induction forms generalizing a b with
  | nil =>
    obtain rfl := List.mem_singleton.mp hb
    exact hn
  | cons c rest ih =>
    rw [List.foldl_cons]
    rcases List.mem_cons.mp hb with rfl | hb
    · exact ih List.mem_cons_self (admits_hull_left hn)
    · rcases List.mem_cons.mp hb with rfl | hb
      · exact ih List.mem_cons_self (admits_hull_right hn)
      · exact ih (List.mem_cons_of_mem _ hb) hn

end Arity

namespace Language

/-- The forms in which a name can be called: those of the methods of that name and that of the
function. -/
def forms (l : Language) (name : String) : List Arity :=
  l.methodArities name ++ ((l.function? name).map Function.arity).toList

/-- Some form of the name takes `n` arguments: a form of a method of some object, or the
function. -/
def Admits (l : Language) (name : String) (n : Nat) : Prop :=
  (∃ o ∈ l.objects, ∃ m, o.method? name = some m ∧ ∃ a ∈ m.arities, a.admits n) ∨
    ∃ f, l.function? name = some f ∧ f.arity.admits n

theorem mem_methodArities {l : Language} {name : String} {a : Arity} :
    a ∈ l.methodArities name ↔ ∃ o ∈ l.objects, ∃ m, o.method? name = some m ∧ a ∈ m.arities := by
  simp only [methodArities, List.mem_flatMap]
  refine exists_congr fun o => and_congr_right fun _ => ?_
  cases o.method? name <;> simp

theorem admits_iff {l : Language} {name : String} {n : Nat} :
    l.Admits name n ↔ ∃ a ∈ l.forms name, a.admits n := by
  simp only [Admits, forms, List.mem_append, mem_methodArities, Option.mem_toList,
    Option.map_eq_some_iff]
  constructor
  · rintro (⟨o, ho, m, hm, a, ha, hn⟩ | ⟨f, hf, hn⟩)
    · exact ⟨a, .inl ⟨o, ho, m, hm, ha⟩, hn⟩
    · exact ⟨f.arity, .inr ⟨f, hf, rfl⟩, hn⟩
  · rintro ⟨a, ⟨o, ho, m, hm, ha⟩ | ⟨f, hf, rfl⟩, hn⟩
    · exact .inl ⟨o, ho, m, hm, a, ha, hn⟩
    · exact .inr ⟨f, hf, hn⟩

/-- The range of a name covers each of its forms, where no function stands for the methods. -/
theorem callArity?_covers {l : Language} {name : String} {a r : Arity}
    (hname : name ≠ "CreateSparseArray") (hf : l.function? name = none)
    (hr : l.callArity? name = some r) (ha : a ∈ l.forms name) : r.Covers a := by
  rw [Arity.covers_iff]
  intro n hn
  have hm : a ∈ l.methodArities name := by simpa [forms, hf] using ha
  simp only [callArity?, hname, if_false, hf] at hr
  cases hforms : l.methodArities name with
  | nil => simp [hforms] at hm
  | cons b rest =>
    simp only [hforms, Option.some.injEq] at hr
    subst hr
    exact Arity.admits_foldl_hull (hforms ▸ hm) hn

end Language

end Partitura.ManuScript

namespace Partitura.Lint

open ManuScript

theorem callIssue?_eq_none_iff {l : Language} {c : Call} :
    callIssue? l c = none ↔ ∀ r, l.callArity? c.name = some r → r.admits c.arguments := by
  unfold callIssue?
  cases l.callArity? c.name with
  | none => simp
  | some r =>
    simp only [Option.some.injEq, forall_eq', Arity.admits_iff]
    split
    · simp; omega
    · split <;> simp <;> omega

/-- No admitted call of a name is flagged if and only if the range of the name covers all of its
forms. -/
theorem callIssue?_admitted_iff_covers {l : Language} {name : String} :
    (∀ n, l.Admits name n → ∀ c : Call, c.name = name → c.arguments = n → callIssue? l c = none) ↔
      ∀ r, l.callArity? name = some r → ∀ a ∈ l.forms name, r.Covers a := by
  simp only [callIssue?_eq_none_iff, Arity.covers_iff, Language.admits_iff]
  constructor
  · intro h r hr a ha n hn
    exact h n ⟨a, ha, hn⟩ ⟨⟨1, 1⟩, none, name, n⟩ rfl rfl r hr
  · rintro h n ⟨a, ha, hn⟩ c rfl rfl r hr
    exact h r hr a ha _ hn

/-- No admitted call of a name is flagged if and only if the function of that name, if there is one,
takes every count that a form of a method of that name takes. Sparse arrays are apart: all that is
asked of their forms is to take no more than 99 arguments. -/
theorem callIssue?_admitted_iff (l : Language) (name : String) :
    (∀ n, l.Admits name n → ∀ c : Call, c.name = name → c.arguments = n → callIssue? l c = none) ↔
      if name = "CreateSparseArray" then ∀ a ∈ l.forms name, a.IsInhabited → a.most ≤ 99
      else ∀ f, l.function? name = some f → ∀ a ∈ l.methodArities name, f.arity.Covers a := by
  rw [callIssue?_admitted_iff_covers]
  split
  case isTrue hname =>
    subst hname
    simp only [Language.callArity?, if_true, Option.some.injEq, forall_eq', Arity.Covers]
    refine forall₃_congr fun a _ _ => ?_
    simp only [and_iff_right_iff_imp]
    omega
  case isFalse hname =>
    cases hf : l.function? name with
    | none =>
      simp only [reduceCtorEq, false_implies, implies_true, iff_true]
      intro r hr a ha
      exact Language.callArity?_covers hname hf hr ha
    | some f =>
      simp only [Language.callArity?, hname, if_false, hf, Option.some.injEq,
        forall_eq', Language.forms, Option.map_some, Option.toList_some, List.mem_append,
        List.mem_singleton]
      constructor
      · intro h a ha
        exact h a (.inl ha)
      · rintro h a (ha | rfl)
        · exact h a ha
        · exact Arity.covers_iff.mpr fun _ hn => hn

/-- `StopPlugin` is a method of `Data` that may be given a text and a function that takes nothing,
so the call of the method with a text is flagged; `SplitString` takes a single argument as a method
only. -/
theorem callIssues_reference_admitted :
    (Language.reference.Admits "StopPlugin" 1 ∧
      callIssues Language.reference "Data.StopPlugin('x');".toList =
        [⟨⟨1, 6⟩, .tooManyArguments "StopPlugin" 0 1⟩]) ∧
    (Language.reference.Admits "SplitString" 1 ∧
      callIssues Language.reference "Data.SplitString(x);".toList =
        [⟨⟨1, 6⟩, .tooFewArguments "SplitString" 2 1⟩]) := by
  simp only [Language.admits_iff]
  decide +kernel

end Partitura.Lint
